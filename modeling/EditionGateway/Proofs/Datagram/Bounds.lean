import EditionGateway.Proofs.Datagram.Hearing
import Mathlib.Data.List.Induction

/-!
A peer that may send anything. Whatever comes, few packets are incomplete at a time and each of them is
within its bounds (`Reassembly.Bounded`); what is put together has come under one number, and packets are
delivered by increasing sequence numbers (`stays_bounded`).
-/

namespace EditionGateway
namespace Datagram

/-- The fragments that can be read of byte strings. -/
def heard (bs : List Bytes) : List Fragment := bs.filterMap fun b => (Scan.fragment.eval b).toOption

/-- A fragment brings part `i` of the `count` parts of a packet. -/
structure Fragment.Brings (f : Fragment) (split : UInt16) (count i : Nat) (payload : Bytes) : Prop where
  split : f.split = split
  count : f.count.toNat = count
  index : f.index.toNat = i
  payload : f.payload = payload

/-- Each part that has come was brought by one of these fragments under the number `split`. -/
def Split.CameIn (s : Split) (split : UInt16) (fs : List Fragment) : Prop :=
  ∀ (i : Nat) (b : Bytes), s.parts[i]? = some (some b) →
    ∃ f ∈ fs, f.Brings split s.parts.length i b

/-- An incomplete packet has at least two parts and not too many; some of them have come, as many as are
counted, but not all. -/
structure Split.Bounded (s : Split) : Prop where
  several : 2 ≤ s.parts.length
  few : s.parts.length ≤ maxFragments
  counted : s.IsCounted
  begun : 1 ≤ s.received
  lacks : s.received < s.parts.length

namespace Split

variable {s : Split} {split : UInt16} {fs : List Fragment} {f : Fragment} {i : Nat} {b : Bytes}

theorem CameIn.mono (h : s.CameIn split fs) (f : Fragment) : s.CameIn split (fs ++ [f]) := by
  intro i b hb
  obtain ⟨g, hg, hbrings⟩ := h i b hb
  exact ⟨g, List.mem_append_left _ hg, hbrings⟩

theorem cameIn_empty (seq : UInt32) (count : Nat) (split : UInt16) (fs : List Fragment) :
    (empty seq count).CameIn split fs := by
  intro i b hb
  have hnone := List.eq_of_mem_replicate (List.mem_of_getElem? hb)
  cases hnone

theorem CameIn.fill (h : s.CameIn split fs) (hf : f.Brings split s.parts.length i b) :
    (s.fill i b).CameIn split (fs ++ [f]) := by
  intro j c hc
  rw [length_fill]
  rw [getElem?_fill] at hc
  split at hc
  · next hij =>
    obtain rfl : b = c := Option.some.inj (Option.some.inj hc)
    rw [hij.1]
    exact ⟨f, List.mem_append_right _ List.mem_cons_self, hf⟩
  · exact h.mono f j c hc

/-- If the place is one of its parts, a part has come afterwards. -/
theorem received_fill_pos (h : s.IsCounted) (hi : i < s.parts.length) : 1 ≤ (s.fill i b).received := by
  have hfilled : ∃ c, (s.fill i b).parts[i]? = some (some c) := by
    rw [getElem?_fill]
    obtain ⟨o, ho⟩ : ∃ o, s.parts[i]? = some o := ⟨_, List.getElem?_eq_getElem hi⟩
    cases o with
    | none => exact ⟨b, by rw [if_pos ⟨rfl, ho⟩]⟩
    | some c => exact ⟨c, by rw [if_neg (by simp [ho]), ho]⟩
  obtain ⟨c, hc⟩ := hfilled
  rw [h.fill (i := i) (b := b)]
  exact List.countP_pos_iff.mpr ⟨some c, List.mem_of_getElem? hc, rfl⟩

end Split

namespace Reassembly

/-- Few packets are incomplete, under different numbers, and each of them is within its bounds. -/
structure Bounded (r : Reassembly) (fs : List Fragment) : Prop where
  keys : r.splits.keys.Nodup
  pending : r.splits.length ≤ maxPendingSplits
  split : ∀ n s, (n, s) ∈ r.splits → s.Bounded ∧ s.CameIn n fs

variable {r base : Reassembly} {fs : List Fragment} {f : Fragment} {s : Split} {seq : UInt32}
  {body : Bytes}

theorem bounded_empty : ({} : Reassembly).Bounded [] :=
  ⟨List.nodup_nil, Nat.zero_le _, fun _ _ h => absurd h List.not_mem_nil⟩

theorem Bounded.congr (h : r.Bounded fs) {r' : Reassembly} (same : r'.splits = r.splits) :
    r'.Bounded fs := by
  obtain ⟨hkeys, hpending, hsplit⟩ := h
  rw [← same] at hkeys hpending hsplit
  exact ⟨hkeys, hpending, hsplit⟩

theorem Bounded.mono (h : r.Bounded fs) (f : Fragment) : r.Bounded (fs ++ [f]) :=
  ⟨h.keys, h.pending, fun n s hs => ⟨(h.split n s hs).1, (h.split n s hs).2.mono f⟩⟩

/-- Packets may be given up. -/
theorem Bounded.filter (h : r.Bounded fs) (keep : UInt16 × Split → Bool) {last : Option UInt32} :
    (⟨r.splits.filter keep, last⟩ : Reassembly).Bounded fs where
  keys := h.keys.sublist (List.Sublist.map _ List.filter_sublist)
  pending := Nat.le_trans (List.length_filter_le _ _) h.pending
  split n s hs := h.split n s (List.mem_filter.mp hs).1

theorem Bounded.evictStale (h : r.Bounded fs) (seq : UInt32) : (r.evictStale seq).Bounded fs :=
  h.filter _

/-- What a fragment is put to has counted its parts, and each of them has come in. -/
theorem Bounded.meets (h : r.Bounded fs) (hm : r.Meets f base s) :
    base.Bounded fs ∧ s.IsCounted ∧ s.CameIn f.split fs := by
  cases hm with
  | known found same =>
    obtain ⟨hs, hcame⟩ := h.split _ _ (Table.mem_of_get? found)
    exact ⟨h, hs.counted, hcame⟩
  | begins absent room =>
    exact ⟨h.evictStale f.seq, Split.isCounted_empty _ _, Split.cameIn_empty _ _ _ _⟩

/-- The place of a part is one of those of its packet, and the number of parts that have come can be
counted on. -/
theorem Bounded.place (h : r.Bounded fs) (regular : Regular f) (hm : r.Meets f base s) :
    f.index.toNat < s.parts.length ∧ s.received < maxFragments := by
  have hlength := hm.length_eq
  have hindex := regular.index
  have hfew := regular.few
  refine ⟨by omega, ?_⟩
  cases hm with
  | known found same =>
    have hlacks := (h.split _ _ (Table.mem_of_get? found)).1.lacks
    omega
  | begins =>
    have hmax : maxFragments = 512 := rfl
    change 0 < maxFragments
    omega

/-- There is room for the packet that a fragment is put to. -/
theorem Bounded.room (h : r.Bounded fs) (hm : r.Meets f base s) :
    (base.splits.erase f.split).length < maxPendingSplits := by
  cases hm with
  | known found same =>
    refine Nat.lt_of_lt_of_le (List.length_filter_lt_length_iff_exists.mpr ?_) h.pending
    exact ⟨_, Table.mem_of_get? found, by simp⟩
  | begins absent room =>
    rw [Table.erase_of_absent (evictStale_absent f.seq absent)]
    exact room

theorem fill_cameIn (h : r.Bounded fs) (hm : r.Meets f base s) :
    (s.fill f.index.toNat f.payload).CameIn f.split (fs ++ [f]) :=
  (h.meets hm).2.2.fill ⟨rfl, hm.length_eq.symm, rfl, rfl⟩

/-- Whatever the fragment, all bounds hold afterwards. -/
theorem Bounded.accept (h : r.Bounded fs) (f : Fragment) : (r.accept f).2.Bounded (fs ++ [f]) := by
  have hfate := r.fate_accept f
  generalize r.accept f = result at hfate ⊢
  cases hfate with
  | refused m => exact h.mono f
  | crowded absent full => exact (h.evictStale f.seq).mono f
  | whole regular one => exact h.mono f
  | @waits base s regular several hm more =>
    obtain ⟨hbase, hcounted, -⟩ := h.meets hm
    have hlength := hm.length_eq
    have hplace := (h.place regular hm).1
    have hpositive := Split.received_fill_pos (b := f.payload) hcounted hplace
    -- the packet of `f` is taken out before it is put back, so it is not counted twice
    refine ⟨Table.nodup_keys_insert hbase.keys _ _, ?_, fun n t ht => ?_⟩
    · show (base.splits.erase f.split ++ [_]).length ≤ maxPendingSplits
      rw [List.length_append]
      exact h.room hm
    · rcases List.mem_append.mp ht with ht | ht
      · obtain ⟨hbounded, hcame⟩ := hbase.split n t (List.mem_filter.mp ht).1
        exact ⟨hbounded, hcame.mono f⟩
      · obtain ⟨rfl, rfl⟩ := Prod.mk.inj (List.mem_singleton.mp ht)
        refine ⟨⟨?_, ?_, hcounted.fill, hpositive, ?_⟩, fill_cameIn h hm⟩
        · rw [Split.length_fill]
          omega
        · rw [Split.length_fill, hlength]
          exact regular.few
        · rw [Split.length_fill, hlength]
          exact more
  | completes regular several hm all => exact ((h.meets hm).1.filter _).mono f

/-- What has been put together are the parts of a packet in their order, and each of them came in under
the number and the count of the last one. -/
theorem Bounded.joined (h : r.Bounded fs) (hbody : (r.accept f).1 = .ok (some (seq, body))) :
    ∃ parts : List Bytes, body = parts.flatten ∧ parts.length = f.count.toNat ∧
      ∀ (i : Nat) (b : Bytes), parts[i]? = some b →
        ∃ g ∈ fs ++ [f], g.Brings f.split f.count.toNat i b := by
  have hfate := r.fate_accept f
  generalize r.accept f = result at hfate hbody
  cases hfate with
  | refused m => cases hbody
  | crowded => cases hbody
  | whole regular one =>
    cases hbody
    -- a packet by itself has one part, which `f` brings
    refine ⟨[f.payload], List.flatten_singleton.symm, one.symm, fun i b hb => ?_⟩
    obtain ⟨hi, hb⟩ := List.getElem?_eq_some_iff.mp hb
    obtain rfl : i = 0 := Nat.lt_one_iff.mp hi
    have hindex := regular.index
    exact ⟨f, List.mem_append_right _ List.mem_cons_self, rfl, rfl, by omega, hb⟩
  | waits => cases hbody
  | @completes base s regular several hm all =>
    cases hbody
    have hlength : (s.fill f.index.toNat f.payload).parts.length = f.count.toNat :=
      Split.length_fill.trans hm.length_eq
    have hcounted : (s.fill f.index.toNat f.payload).IsCounted := (h.meets hm).2.1.fill
    obtain ⟨parts, hparts, hbody⟩ := hcounted.parts_eq (by rwa [hlength])
    have hcame := fill_cameIn h hm
    rw [Split.CameIn, hlength, hparts] at hcame
    rw [hparts, List.length_map] at hlength
    refine ⟨parts, hbody, hlength, fun i b hb => hcame i b ?_⟩
    rw [List.getElem?_map, hb]
    rfl

/-! ### Byte strings -/

/-- What is delivered is later than all that was delivered before. -/
inductive Delivery (r : Reassembly) : Option (Except LinkError (UInt32 × Bytes)) × Reassembly → Prop
  | nothing {r' : Reassembly} (last : r'.lastDelivered = r.lastDelivered) : Delivery r (none, r')
  | error {r' : Reassembly} (err : LinkError) (last : r'.lastDelivered = r.lastDelivered) :
    Delivery r (some (.error err), r')
  | packet {r' : Reassembly} (seq : UInt32) (body : Bytes) (later : ∀ n ∈ r.lastDelivered, n < seq)
    (last : r'.lastDelivered = some seq) : Delivery r (some (.ok (seq, body)), r')

theorem acceptBytes_lastDelivered (r : Reassembly) (b : Bytes) :
    (r.acceptBytes b).2.lastDelivered = r.lastDelivered := by
  rw [acceptBytes]
  split
  · rfl
  · exact r.accept_lastDelivered _

theorem delivery_hear (r : Reassembly) (b : Bytes) : r.Delivery (r.hear b) := by
  have hlast := r.acceptBytes_lastDelivered b
  rw [hear]
  generalize r.acceptBytes b = accepted at hlast ⊢
  obtain ⟨err | _ | ⟨seq, body⟩, r'⟩ := accepted
  · exact .error err hlast
  · exact .nothing hlast
  · dsimp only at hlast ⊢
    rw [deliver_eq]
    by_cases hlater : r'.lastDelivered.all (· < seq) = true
    · simp only [hlater, if_true]
      refine .packet seq body (fun n hn => ?_) rfl
      rw [hlast, hn] at hlater
      simpa using hlater
    · rw [Bool.not_eq_true] at hlater
      simp only [hlater, Bool.false_eq_true, if_false]
      exact .nothing hlast

theorem hear_splits (r : Reassembly) (b : Bytes) : (r.hear b).2.splits = (r.acceptBytes b).2.splits := by
  rw [hear]
  generalize r.acceptBytes b = accepted
  obtain ⟨err | _ | ⟨seq, body⟩, r'⟩ := accepted
  · rfl
  · rfl
  · dsimp only
    rw [deliver_eq]
    split
    · next heq => rw [← (Prod.mk.inj heq).2]
    · next heq => rw [← (Prod.mk.inj heq).2]

theorem heard_concat (bs : List Bytes) (b : Bytes) :
    heard (bs ++ [b]) = heard bs ++ (Scan.fragment.eval b).toOption.toList := by
  rw [heard, List.filterMap_append, heard]
  cases h : (Scan.fragment.eval b).toOption <;> simp [h]

theorem Bounded.hear {bs : List Bytes} (h : r.Bounded (heard bs)) (b : Bytes) :
    (r.hear b).2.Bounded (heard (bs ++ [b])) := by
  refine Bounded.congr ?_ (r.hear_splits b)
  rw [heard_concat, acceptBytes]
  cases Scan.fragment.eval b with
  | error err =>
    rw [Except.toOption, Option.toList_none, List.append_nil]
    exact h
  | ok f => exact h.accept f

theorem bounded_afterBytes (bs : List Bytes) : (({} : Reassembly).afterBytes bs).Bounded (heard bs) := by
  induction bs using List.reverseRecOn with
  | nil => exact bounded_empty
  | append_singleton bs b ih =>
    rw [afterBytes_concat]
    exact ih.hear b

/-- An error leaves all as it was, or drops what is stale. -/
theorem hear_of_error {b : Bytes} {err : LinkError} (h : (r.hear b).1 = some (.error err)) :
    (r.hear b).2 = r ∨ ∃ f, Scan.fragment.eval b = .ok f ∧ (r.hear b).2 = r.evictStale f.seq := by
  have haccept : (r.acceptBytes b).1 = .error err ∧ (r.hear b).2 = (r.acceptBytes b).2 := by
    rw [Reassembly.hear] at h ⊢
    generalize r.acceptBytes b = accepted at h ⊢
    obtain ⟨err' | _ | ⟨seq, body⟩, r'⟩ := accepted
    · cases h
      exact ⟨rfl, rfl⟩
    · cases h
    · dsimp only at h
      split at h <;> cases h
  obtain ⟨herror, hsame⟩ := haccept
  rw [hsame]
  rw [acceptBytes] at herror ⊢
  cases hf : Scan.fragment.eval b with
  | error _ => exact .inl rfl
  | ok f =>
    rw [hf] at herror
    dsimp only at herror ⊢
    have hfate := r.fate_accept f
    generalize r.accept f = result at hfate herror ⊢
    cases hfate with
    | refused m => exact .inl rfl
    | crowded => exact .inr ⟨f, rfl, rfl⟩
    | whole => cases herror
    | waits => cases herror
    | completes => cases herror

/-- What one more byte string can do. -/
structure Tame (r : Reassembly) (bs : List Bytes) : Prop where
  /-- Bytes are read only where there are some. -/
  reads : ∀ b err, Scan.fragment.eval b = .error err →
    ∃ wanted offset, err = .malformed (.shortDatagram wanted offset) ∧
      offset ≤ b.length ∧ b.length < offset + wanted
  /-- A part has a place, and the count of those that have come stays within 16 bits. -/
  places : ∀ f base s, Regular f → 1 < f.count.toNat → r.Meets f base s →
    f.index.toNat < s.parts.length ∧ s.received + 1 < UInt16.size
  /-- An error changes nothing but that stale packets may go. -/
  errors : ∀ b err, (r.hear b).1 = some (.error err) →
    (r.hear b).2 = r ∨ ∃ f, Scan.fragment.eval b = .ok f ∧ (r.hear b).2 = r.evictStale f.seq
  /-- Parts are joined only if they have come under one number and one count. -/
  bodies : ∀ b f seq body, Scan.fragment.eval b = .ok f → (r.acceptBytes b).1 = .ok (some (seq, body)) →
    ∃ parts : List Bytes, body = parts.flatten ∧ parts.length = f.count.toNat ∧
      ∀ (i : Nat) (c : Bytes), parts[i]? = some c →
        ∃ g ∈ heard (bs ++ [b]), g.Brings f.split f.count.toNat i c
  /-- The number of the last packet does not become less. -/
  lasts : ∀ b, ∀ n ∈ r.lastDelivered, ∃ m ∈ (r.hear b).2.lastDelivered, n ≤ m

theorem Bounded.tame {bs : List Bytes} (h : r.Bounded (heard bs)) : r.Tame bs where
  reads b err := Scan.error_of_fragment
  places f base s regular several hm := by
    obtain ⟨hindex, hreceived⟩ := h.place regular hm
    have hsize : maxFragments + 1 < UInt16.size := by decide
    exact ⟨hindex, by omega⟩
  errors b err := hear_of_error
  bodies b f seq body hf hbody := by
    have haccept : (r.accept f).1 = .ok (some (seq, body)) := by
      rw [acceptBytes, hf] at hbody
      dsimp only at hbody
      cases hresult : (r.accept f).1 with
      | error m =>
        rw [hresult] at hbody
        cases hbody
      | ok got =>
        rw [hresult] at hbody
        exact congrArg _ (Except.ok.inj hbody)
    rw [heard_concat, hf]
    exact h.joined haccept
  lasts b n hn := by
    have hdelivery := r.delivery_hear b
    generalize r.hear b = result at hdelivery ⊢
    cases hdelivery with
    | nothing last => exact ⟨n, last ▸ hn, UInt32.le_refl n⟩
    | error err last => exact ⟨n, last ▸ hn, UInt32.le_refl n⟩
    | packet seq body later last => exact ⟨seq, last, UInt32.le_of_lt (later n hn)⟩

/-- The sequence numbers of the packets among what is delivered. -/
def numbers (log : List (Except LinkError (UInt32 × Bytes))) : List UInt32 :=
  log.filterMap fun got => got.toOption.map Prod.fst

theorem numbers_hears (r : Reassembly) (bs : List Bytes) :
    (∀ n ∈ r.lastDelivered, ∀ m ∈ numbers (r.hears bs), n < m) ∧
      (numbers (r.hears bs)).Pairwise (· < ·) := by
  induction bs generalizing r with
  | nil => exact ⟨fun _ _ _ h => absurd h List.not_mem_nil, .nil⟩
  | cons b bs ih =>
    obtain ⟨hfirst, hrest⟩ := ih (r.hear b).2
    have hdelivery := r.delivery_hear b
    rw [hears]
    generalize r.hear b = result at hdelivery hfirst hrest ⊢
    cases hdelivery with
    | nothing last => exact ⟨fun n hn => hfirst n (last ▸ hn), hrest⟩
    | error err last => exact ⟨fun n hn => hfirst n (last ▸ hn), hrest⟩
    | packet seq body later last =>
      refine ⟨fun n hn m hm => ?_, .cons (hfirst seq last) hrest⟩
      rcases List.mem_cons.mp hm with rfl | hm
      · exact later n hn
      · exact UInt32.lt_trans (later n hn) (hfirst seq last m hm)

end Reassembly

namespace Endpoint

open Reassembly (numbers)

variable {a : Address} {id : ConnectionId} {e : Endpoint} {r : Reassembly}

theorem Tends.afterRaw (h : e.Tends a id r) (ts : List RawTurn) :
    (e.after (ts.map (·.incident a id))).Tends a id (r.afterBytes (cameIn ts)) := by
  induction ts generalizing e r with
  | nil => exact h
  | cons t ts ih =>
    cases t with
    | arrival b => exact ih (h.hear b).1
    | take => exact ih h.take.1

/-- What is put into the inbox is some of what the byte strings bring, in the same order. -/
theorem Tends.gained_sublist (h : e.Tends a id r) (ts : List RawTurn) :
    ∃ log : List (Except LinkError (UInt32 × Bytes)), log.Sublist (r.hears (cameIn ts)) ∧
      e.gained id (ts.map (·.incident a id)) = log.map (·.map Prod.snd) := by
  induction ts generalizing e r with
  | nil => exact ⟨[], .slnil, rfl⟩
  | cons t ts ih =>
    cases t with
    | arrival b =>
      obtain ⟨hnext, hinbox⟩ := h.hear b
      obtain ⟨log, hlog, hgained⟩ := ih hnext
      have hgain : ((e.next (RawTurn.arrival b |>.incident a id)).inbox id).drop (e.inbox id).length =
          if (e.inbox id).length < inboxCapacity then (r.hear b).1.toList.map (·.map Prod.snd) else [] := by
        rw [hinbox]
        cases (r.hear b).1 with
        | none => simp
        | some got =>
          dsimp only
          split
          · exact List.drop_left
          · exact List.drop_length
      rw [List.map_cons, gained, hgained, hgain]
      -- what comes while the inbox is full is lost
      split
      · exact ⟨(r.hear b).1.toList ++ log, (List.Sublist.refl _).append hlog, List.map_append.symm⟩
      · exact ⟨log, hlog.trans (List.sublist_append_right _ _), rfl⟩
    | take =>
      have hnext : (e.next (RawTurn.take.incident a id)).Tends a id r := h.take.1
      obtain ⟨log, hlog, hgained⟩ := ih hnext
      have hgain : ((e.next (RawTurn.take.incident a id)).inbox id).drop (e.inbox id).length = [] :=
        h.gain_take
      rw [List.map_cons, gained, hgained, hgain]
      exact ⟨log, hlog, rfl⟩

/-- Whatever a peer sends, what is kept of it stays within its bounds, whatever it may send next. What is
put into the inbox are errors and packets with increasing sequence numbers. -/
theorem stays_bounded (he : e.Tends a id {}) (ts : List RawTurn) :
    (∃ r : Reassembly, (e.after (ts.map (·.incident a id))).Tends a id r ∧
      r.Bounded (heard (cameIn ts)) ∧ r.Tame (cameIn ts)) ∧
    ∃ log : List (Except LinkError (UInt32 × Bytes)),
      log.Sublist (({} : Reassembly).hears (cameIn ts)) ∧
      e.gained id (ts.map (·.incident a id)) = log.map (·.map Prod.snd) ∧
      (numbers log).Pairwise (· < ·) := by
  have hbounded := Reassembly.bounded_afterBytes (cameIn ts)
  obtain ⟨log, hlog, hgained⟩ := he.gained_sublist ts
  have hnumbers := (Reassembly.numbers_hears {} (cameIn ts)).2
  exact ⟨⟨_, he.afterRaw ts, hbounded, hbounded.tame⟩, log, hlog, hgained,
    hnumbers.sublist (hlog.filterMap _)⟩

/-- Bytes that end too early, a part that lies about its packet, and a packet that comes before an earlier
one is complete. -/
theorem stays_bounded_one :
    let e := (listen 0 defaultMtu).after [knock "a", .accept]
    let ts : List RawTurn := [.arrival [0], .arrival [0, 0, 0, 3, 0, 5, 0, 0, 0, 2, 7],
      .arrival [0, 0, 0, 3, 0, 5, 0, 1, 0, 3, 8], .take, .arrival [0, 0, 0, 4, 0, 6, 0, 0, 0, 1, 9],
      .arrival [0, 0, 0, 3, 0, 5, 0, 1, 0, 2, 8]]
    e.Tends "a" ⟨1⟩ {} ∧
      e.gained ⟨1⟩ (ts.map (·.incident "a" ⟨1⟩)) =
        [.error (.malformed (.shortDatagram 4 0)), .error (.malformed (.changedCount 5)), .ok [9]] ∧
      ∃ r : Reassembly, (e.after (ts.map (·.incident "a" ⟨1⟩))).Tends "a" ⟨1⟩ r ∧
        r.Bounded (heard (cameIn ts)) ∧ r.Tame (cameIn ts) := by
  have he : ((listen 0 defaultMtu).after [knock "a", .accept]).Tends "a" ⟨1⟩ {} :=
    ⟨rfl, ⟨_, rfl, rfl, rfl⟩, _, rfl⟩
  exact ⟨he, rfl, (stays_bounded he _).1⟩

end Endpoint
end Datagram
end EditionGateway
