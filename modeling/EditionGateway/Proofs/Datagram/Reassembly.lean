import EditionGateway.Datagram.Reassembly
import EditionGateway.Proofs.Datagram.Sending

/-!
How packets are put together from their fragments, one fragment after another. A fragment of a packet
is all of it, or it meets the parts of that number that have come before it.
-/

namespace EditionGateway
namespace Datagram

namespace Split

variable {s : Split} {i : Nat} {b : Bytes}

@[simp] theorem seq_fill : (s.fill i b).seq = s.seq := by
  unfold fill
  split <;> rfl

@[simp] theorem length_fill : (s.fill i b).parts.length = s.parts.length := by
  unfold fill
  split
  · exact List.length_set ..
  · rfl

/-- Only a free place is filled. -/
theorem getElem?_fill (j : Nat) : (s.fill i b).parts[j]? =
    if j = i ∧ s.parts[i]? = some none then some (some b) else s.parts[j]? := by
  unfold fill
  split
  · next hfree =>
    obtain ⟨hlt, -⟩ := List.getElem?_eq_some_iff.mp hfree
    rw [List.getElem?_set]
    by_cases hij : i = j
    · rw [if_pos hij, if_pos hlt, if_pos ⟨hij.symm, hfree⟩]
    · rw [if_neg hij, if_neg fun h => hij h.1.symm]
  · next hfull => rw [if_neg fun h => hfull h.2]

/-- As many parts have come as places are filled. -/
def IsCounted (s : Split) : Prop := s.received = s.parts.countP Option.isSome

theorem isCounted_empty (seq : UInt32) (count : Nat) : (empty seq count).IsCounted := by
  simp [IsCounted, empty, List.countP_replicate]

theorem IsCounted.fill (h : s.IsCounted) : (s.fill i b).IsCounted := by
  unfold Split.fill
  split
  · next hfree =>
    obtain ⟨hlt, hnone⟩ := List.getElem?_eq_some_iff.mp hfree
    rw [IsCounted]
    dsimp only
    rw [List.countP_set hlt, hnone, h]
    rfl
  · exact h

/-- When as many parts have come as there are places, no place is free. -/
theorem IsCounted.parts_eq (h : s.IsCounted) (all : s.parts.length ≤ s.received) :
    ∃ parts : List Bytes, s.parts = parts.map some ∧ s.body = parts.flatten := by
  rw [h] at all
  have hall : ∀ o ∈ s.parts, Option.isSome o = true :=
    List.countP_eq_length.mp (Nat.le_antisymm List.countP_le_length all)
  have hparts : s.parts = (s.parts.map (·.getD [])).map some := by
    rw [List.map_map]
    refine (List.map_id s.parts).symm.trans (List.map_congr_left fun o ho => ?_)
    obtain ⟨b, rfl⟩ := Option.isSome_iff_exists.mp (hall o ho)
    rfl
  exact ⟨_, hparts, List.flatMap_def⟩

end Split

namespace Reassembly

/-- What a fragment brings for the inbox. -/
def feed (r : Reassembly) (f : Fragment) : Option (Except LinkError Bytes) × Reassembly :=
  match r.accept f with
  | (.error m, r) => (some (.error (.malformed m)), r)
  | (.ok none, r) => (none, r)
  | (.ok (some (seq, body)), r) =>
    match r.deliver seq with
    | (false, r) => (none, r)
    | (true, r) => (some (.ok body), r)

def after (r : Reassembly) (fs : List Fragment) : Reassembly := fs.foldl (fun r f => (r.feed f).2) r

/-- What fragments bring for the inbox. -/
def yields (r : Reassembly) : List Fragment → List (Except LinkError Bytes)
  | [] => []
  | f :: fs => (r.feed f).1.toList ++ (r.feed f).2.yields fs

@[simp] theorem after_nil (r : Reassembly) : r.after [] = r := rfl

@[simp] theorem after_cons (r : Reassembly) (f : Fragment) (fs : List Fragment) :
    r.after (f :: fs) = (r.feed f).2.after fs := rfl

@[simp] theorem after_append (r : Reassembly) (fs gs : List Fragment) :
    r.after (fs ++ gs) = (r.after fs).after gs :=
  List.foldl_append

theorem yields_append (r : Reassembly) (fs gs : List Fragment) :
    r.yields (fs ++ gs) = r.yields fs ++ (r.after fs).yields gs := by
  induction fs generalizing r with
  | nil => rfl
  | cons f fs ih => rw [List.cons_append, yields, yields, ih, List.append_assoc, after_cons]

theorem deliver_eq (r : Reassembly) (seq : UInt32) :
    r.deliver seq = (r.lastDelivered.all (· < seq),
      { r with lastDelivered := if r.lastDelivered.all (· < seq) then some seq else r.lastDelivered }) := by
  obtain ⟨splits, last⟩ := r
  cases last with
  | none => rfl
  | some last =>
    rw [deliver]
    by_cases hle : seq ≤ last
    · have hlt : ¬ last < seq := UInt32.not_lt.mpr hle
      simp [hle, hlt]
    · have hlt : last < seq := UInt32.not_le.mp hle
      simp [hle, hlt]

/-- A packet that is complete is put into the inbox if it is later than the last one. -/
theorem feed_of_complete {r s : Reassembly} {f : Fragment} {seq : UInt32} {body : Bytes}
    (h : r.accept f = (.ok (some (seq, body)), s)) :
    r.feed f = (if s.lastDelivered.all (· < seq) then some (.ok body) else none,
      { s with lastDelivered := if s.lastDelivered.all (· < seq) then some seq else s.lastDelivered }) := by
  simp only [feed, h]
  rw [deliver_eq]
  by_cases hlater : s.lastDelivered.all (· < seq) = true
  · simp only [hlater, if_true]
  · simp only [Bool.not_eq_true] at hlater
    simp only [hlater, Bool.false_eq_true, if_false]

theorem evictStale_absent {r : Reassembly} {split : UInt16} (seq : UInt32)
    (h : r.splits.get? split = none) : (r.evictStale seq).splits.get? split = none := by
  cases hs : (r.evictStale seq).splits.get? split with
  | none => rfl
  | some s =>
    have hmem : split ∈ r.splits.keys :=
      List.mem_map.mpr ⟨_, (List.mem_filter.mp (Table.mem_of_get? hs)).1, rfl⟩
    rw [← Table.contains_iff, Table.contains, h] at hmem
    cases hmem

theorem feed_splits (r : Reassembly) (f : Fragment) : (r.feed f).2.splits = (r.accept f).2.splits := by
  unfold feed
  split
  · next h => rw [h]
  · next h => rw [h]
  · next seq body s h =>
    rw [deliver_eq, h]
    split
    · next heq => rw [← (Prod.mk.inj heq).2]
    · next heq => rw [← (Prod.mk.inj heq).2]

theorem accept_of_feed {r : Reassembly} {f : Fragment} {body : Bytes}
    (h : (r.feed f).1 = some (.ok body)) : ∃ seq, (r.accept f).1 = .ok (some (seq, body)) := by
  unfold feed at h
  split at h
  · cases h
  · cases h
  · next seq b s hs =>
    split at h
    · cases h
    · obtain rfl : b = body := Except.ok.inj (Option.some.inj h)
      exact ⟨seq, by rw [hs]⟩

section Accept

variable {f : Fragment} {seq : UInt32} {split : UInt16} {parts : List Bytes} {i : Nat}

/-- Nothing is wrong with a part of a packet. -/
theorem well_formed (h : f.IsPart seq split parts i) :
    ¬ (f.count = 0 ∨ f.count ≤ f.index ∨ maxFragments < f.count.toNat) := by
  have hlt := h.lt
  have hfew := h.few
  have hindex := h.index
  have hcount := h.count
  rintro (hzero | hle | hmany)
  · rw [hzero] at hcount
    have : (0 : UInt16).toNat = 0 := rfl
    omega
  · have := UInt16.le_iff_toNat_le.mp hle
    omega
  · omega

theorem accept_whole (r : Reassembly) (h : f.IsPart seq split parts i) (hone : parts.length = 1) :
    r.accept f = (.ok (some (seq, parts.flatten)), r) := by
  have hcount : f.count = 1 := UInt16.toNat_inj.mp (h.count.trans hone)
  have hlt := h.lt
  have hpayload := h.payload
  obtain ⟨b, rfl⟩ := List.length_eq_one_iff.mp hone
  obtain rfl : i = 0 := by omega
  obtain rfl : b = f.payload := Option.some.inj hpayload
  rw [accept, if_neg (well_formed h), if_pos hcount, h.seq, List.flatten_singleton]

/-- A part of a packet meets an incomplete packet of its number, or it is the first to come. -/
theorem accept_part (r : Reassembly) (h : f.IsPart seq split parts i) (hlong : 1 < parts.length) :
    r.accept f = match r.splits.get? split with
      | some s => r.join f s
      | none =>
        if maxPendingSplits ≤ (r.evictStale seq).splits.length then
          (.error .tooManySplits, r.evictStale seq)
        else (r.evictStale seq).join f (.empty seq parts.length) := by
  have hcount : f.count ≠ 1 := by
    intro hone
    have := h.count
    rw [hone] at this
    exact absurd this (Nat.ne_of_lt hlong)
  obtain rfl := h.seq
  obtain rfl := h.split
  rw [← h.count]
  exact (if_neg (well_formed h)).trans (if_neg hcount)

/-- What a part of a packet does: it completes one, or it is put to an incomplete one, or it is an
error. No other packet becomes incomplete. -/
inductive Takes (r : Reassembly) (seq : UInt32) (split : UInt16) (parts : List Bytes) (i : Nat)
    (payload : Bytes) : Except Malformed (Option (UInt32 × Bytes)) × Reassembly → Prop
  | refuses (m : Malformed) {r' : Reassembly} (splits : r'.splits ⊆ r.splits) :
      Takes r seq split parts i payload (.error m, r')
  | waits {s : Split} {r' : Reassembly} (came : (split, s) ∈ r.splits ∨ s = .empty seq parts.length)
      (length : s.parts.length = parts.length)
      (splits : r'.splits ⊆ (split, s.fill i payload) :: r.splits) :
      Takes r seq split parts i payload (.ok none, r')
  | completes {s : Split} {r' : Reassembly} (came : (split, s) ∈ r.splits ∨ s = .empty seq parts.length)
      (length : s.parts.length = parts.length) (all : parts.length ≤ (s.fill i payload).received)
      (splits : r'.splits ⊆ r.splits) :
      Takes r seq split parts i payload (.ok (some (s.seq, (s.fill i payload).body)), r')

theorem Takes.mono {q r : Reassembly} {payload : Bytes}
    {res : Except Malformed (Option (UInt32 × Bytes)) × Reassembly} (hq : q.splits ⊆ r.splits)
    (h : q.Takes seq split parts i payload res) : r.Takes seq split parts i payload res := by
  have hcame {s : Split} (came : (split, s) ∈ q.splits ∨ s = .empty seq parts.length) :
      (split, s) ∈ r.splits ∨ s = .empty seq parts.length := came.imp_left fun hs => hq hs
  cases h with
  | refuses m splits => exact .refuses m fun x hx => hq (splits hx)
  | waits came length splits =>
    exact .waits (hcame came) length fun x hx => List.cons_subset_cons _ hq (splits hx)
  | completes came length all splits =>
    exact .completes (hcame came) length all fun x hx => hq (splits hx)

theorem Takes.mem_splits {r : Reassembly} {payload : Bytes}
    {res : Except Malformed (Option (UInt32 × Bytes)) × Reassembly}
    (h : r.Takes seq split parts i payload res) {x : UInt16 × Split} (hx : x ∈ res.2.splits) :
    x.1 = split ∨ x ∈ r.splits := by
  cases h with
  | refuses m splits => exact .inr (splits hx)
  | waits came length splits =>
    rcases List.mem_cons.mp (splits hx) with rfl | hold
    · exact .inl rfl
    · exact .inr hold
  | completes came length all splits => exact .inr (splits hx)

theorem takes_join (r : Reassembly) (h : f.IsPart seq split parts i) {s : Split}
    (came : (split, s) ∈ r.splits ∨ s = .empty seq parts.length) :
    r.Takes seq split parts i f.payload (r.join f s) := by
  rw [join, h.count, h.index, h.split]
  by_cases hlen : s.parts.length = parts.length
  · rw [if_neg (not_not_intro hlen)]
    dsimp only
    by_cases hmore : (s.fill i f.payload).received < parts.length
    · rw [if_pos hmore]
      refine .waits came hlen fun x hx => ?_
      rcases List.mem_append.mp hx with hx | hx
      · exact List.mem_cons_of_mem _ (List.mem_filter.mp hx).1
      · rw [List.mem_singleton.mp hx]
        exact List.mem_cons_self
    · rw [if_neg hmore, Split.seq_fill]
      exact .completes came hlen (Nat.le_of_not_lt hmore) fun x hx => (List.mem_filter.mp hx).1
  · rw [if_pos hlen]
    exact .refuses _ (List.Subset.refl _)

/-- A part of a packet of a new number finds only what is not stale. -/
theorem takes_new (r : Reassembly) (h : f.IsPart seq split parts i) (hlong : 1 < parts.length)
    (hnew : r.splits.get? split = none) :
    (r.evictStale seq).Takes seq split parts i f.payload (r.accept f) := by
  rw [accept_part r h hlong, hnew]
  dsimp only
  split
  · exact .refuses _ (List.Subset.refl _)
  · exact takes_join _ h (.inr rfl)

theorem takes_part (r : Reassembly) (h : f.IsPart seq split parts i) (hlong : 1 < parts.length) :
    r.Takes seq split parts i f.payload (r.accept f) := by
  cases hs : r.splits.get? split with
  | some s =>
    rw [accept_part r h hlong, hs]
    exact takes_join r h (.inl (Table.mem_of_get? hs))
  | none => exact (takes_new r h hlong hs).mono fun x hx => (List.mem_filter.mp hx).1

end Accept

end Reassembly
end Datagram
end EditionGateway
