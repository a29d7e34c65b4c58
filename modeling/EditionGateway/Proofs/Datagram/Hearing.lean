import EditionGateway.Proofs.Datagram.Receiving

/-!
What any bytes do that a peer sends as a fragment. Reading them fails only where they end; a fragment that
has been read meets one of the fates listed in `Reassembly.Fate`.
-/

namespace EditionGateway
namespace Datagram

namespace Scan

variable {α β : Type}

/-- Reading stays inside a byte string of this length, and fails only where more bytes are wanted than are
left. -/
def Within (length : Nat) (s : Scan α) : Prop :=
  ∀ c : Cursor, c.offset + c.rest.length = length →
    match s c with
    | .ok (_, d) => d.offset + d.rest.length = length
    | .error err =>
      ∃ wanted offset, err = .malformed (.shortDatagram wanted offset) ∧
        offset ≤ length ∧ length < offset + wanted

variable {length : Nat}

theorem within_pure (a : α) : Within length (pure a : Scan α) := fun _ hc => hc

theorem within_take (n : Nat) : Within length (take n) := by
  intro c hc
  have hlength : (c.rest.take n).length = min n c.rest.length := List.length_take
  by_cases h : (c.rest.take n).length = n
  · have hrun : take n c = .ok (c.rest.take n, ⟨c.rest.drop n, c.offset + n⟩) := if_pos h
    rw [hrun]
    dsimp only
    rw [List.length_drop]
    omega
  · have hrun : take n c = .error (.malformed (.shortDatagram n c.offset)) := if_neg h
    rw [hrun]
    exact ⟨n, c.offset, rfl, by omega, by omega⟩

theorem within_rest : Within length rest := by
  intro c hc
  exact hc

theorem Within.bind {s : Scan α} {f : α → Scan β} (hs : Within length s)
    (hf : ∀ a, Within length (f a)) : Within length (s >>= f) := by
  intro c hc
  have hfirst := hs c hc
  cases h : s c with
  | error err =>
    rw [h] at hfirst
    have hrun : (s >>= f) c = .error err := by
      change (s c >>= fun x => f x.1 x.2) = _
      rw [h]
      rfl
    rw [hrun]
    exact hfirst
  | ok x =>
    rw [h] at hfirst
    rw [bind_of_ok h]
    exact hf x.1 x.2 hfirst

theorem within_number (n : Nat) : Within length (number n) :=
  (within_take n).bind fun _ => within_pure _

theorem within_fragment : Within length fragment :=
  (within_number 4).bind fun _ => (within_number 2).bind fun _ => (within_number 2).bind fun _ =>
    (within_number 2).bind fun _ => within_rest.bind fun _ => within_pure _

/-- Bytes that cannot be read as a fragment are too few. -/
theorem error_of_fragment {b : Bytes} {err : LinkError} (h : fragment.eval b = .error err) :
    ∃ wanted offset, err = .malformed (.shortDatagram wanted offset) ∧
      offset ≤ b.length ∧ b.length < offset + wanted := by
  have hwithin := @within_fragment b.length ⟨b, 0⟩ (Nat.zero_add _)
  change (fragment ⟨b, 0⟩).map (·.1) = .error err at h
  cases hrun : fragment ⟨b, 0⟩ with
  | error err' =>
    rw [hrun] at h hwithin
    cases h
    exact hwithin
  | ok x =>
    rw [hrun] at h
    cases h

end Scan

namespace Reassembly

/-- Takes the bytes of a fragment that stand behind its mark. -/
def acceptBytes (r : Reassembly) (b : Bytes) :
    Except LinkError (Option (UInt32 × Bytes)) × Reassembly :=
  match Scan.fragment.eval b with
  | .error err => (.error err, r)
  | .ok f => ((r.accept f).1.mapError .malformed, (r.accept f).2)

/-- What such bytes bring for the inbox: an error, or a packet with its number if it is later than the
last one. -/
def hear (r : Reassembly) (b : Bytes) : Option (Except LinkError (UInt32 × Bytes)) × Reassembly :=
  match r.acceptBytes b with
  | (.error err, r) => (some (.error err), r)
  | (.ok none, r) => (none, r)
  | (.ok (some (seq, body)), r) =>
    match r.deliver seq with
    | (true, r) => (some (.ok (seq, body)), r)
    | (false, r) => (none, r)

/-- What byte strings bring, one after another. -/
def hears (r : Reassembly) : List Bytes → List (Except LinkError (UInt32 × Bytes))
  | [] => []
  | b :: bs => (r.hear b).1.toList ++ (r.hear b).2.hears bs

def afterBytes (r : Reassembly) (bs : List Bytes) : Reassembly := bs.foldl (fun r b => (r.hear b).2) r

@[simp] theorem afterBytes_nil (r : Reassembly) : r.afterBytes [] = r := rfl

@[simp] theorem afterBytes_cons (r : Reassembly) (b : Bytes) (bs : List Bytes) :
    r.afterBytes (b :: bs) = (r.hear b).2.afterBytes bs := rfl

theorem afterBytes_concat (r : Reassembly) (bs : List Bytes) (b : Bytes) :
    r.afterBytes (bs ++ [b]) = ((r.afterBytes bs).hear b).2 :=
  List.foldl_append

variable {r base : Reassembly} {f : Fragment} {s : Split}

/-- A fragment whose place is among those of its packet, and its packet may have so many parts. -/
structure Regular (f : Fragment) : Prop where
  index : f.index.toNat < f.count.toNat
  few : f.count.toNat ≤ maxFragments

theorem regular_iff (f : Fragment) :
    Regular f ↔ ¬ (f.count = 0 ∨ f.count ≤ f.index ∨ maxFragments < f.count.toNat) := by
  constructor
  · rintro ⟨hindex, hfew⟩ (hzero | hle | hmany)
    · rw [hzero] at hindex
      exact absurd hindex (Nat.not_lt_zero _)
    · exact absurd hindex (Nat.not_lt.mpr (UInt16.le_iff_toNat_le.mp hle))
    · exact absurd hfew (Nat.not_le.mpr hmany)
  · intro h
    have hle : ¬ f.count ≤ f.index := fun hle => h (.inr (.inl hle))
    exact ⟨Nat.not_le.mp fun hle' => hle (UInt16.le_iff_toNat_le.mpr hle'),
      Nat.not_lt.mp fun hmany => h (.inr (.inr hmany))⟩

/-- A fragment is put to the incomplete packet `s`, which has come before or begins with it. What is kept
then is `base`. -/
inductive Meets (r : Reassembly) (f : Fragment) : Reassembly → Split → Prop
  | known {s : Split} (found : r.splits.get? f.split = some s) (same : s.parts.length = f.count.toNat) :
    Meets r f r s
  | begins (absent : r.splits.get? f.split = none)
    (room : (r.evictStale f.seq).splits.length < maxPendingSplits) :
    Meets r f (r.evictStale f.seq) (.empty f.seq f.count.toNat)

theorem Meets.length_eq (h : r.Meets f base s) : s.parts.length = f.count.toNat := by
  cases h with
  | known _ same => exact same
  | begins => exact List.length_replicate

/-- All that can become of a fragment: it is an error, or a packet by itself, or a part of a packet, which
goes on to wait for other parts or is complete. -/
inductive Fate (r : Reassembly) (f : Fragment) :
    Except Malformed (Option (UInt32 × Bytes)) × Reassembly → Prop
  | refused (m : Malformed) : Fate r f (.error m, r)
  | crowded (absent : r.splits.get? f.split = none)
    (full : maxPendingSplits ≤ (r.evictStale f.seq).splits.length) :
    Fate r f (.error .tooManySplits, r.evictStale f.seq)
  | whole (regular : Regular f) (one : f.count.toNat = 1) : Fate r f (.ok (some (f.seq, f.payload)), r)
  | waits {base : Reassembly} {s : Split} (regular : Regular f) (several : 1 < f.count.toNat)
    (meets : r.Meets f base s) (more : (s.fill f.index.toNat f.payload).received < f.count.toNat) :
    Fate r f (.ok none,
      { base with splits := base.splits.insert f.split (s.fill f.index.toNat f.payload) })
  | completes {base : Reassembly} {s : Split} (regular : Regular f) (several : 1 < f.count.toNat)
    (meets : r.Meets f base s) (all : f.count.toNat ≤ (s.fill f.index.toNat f.payload).received) :
    Fate r f (.ok (some (s.seq, (s.fill f.index.toNat f.payload).body)),
      { base with splits := base.splits.erase f.split })

theorem fate_join (regular : Regular f) (several : 1 < f.count.toNat) (meets : r.Meets f base s) :
    r.Fate f (base.join f s) := by
  rw [join, if_neg (not_not_intro meets.length_eq)]
  dsimp only
  by_cases hmore : (s.fill f.index.toNat f.payload).received < f.count.toNat
  · rw [if_pos hmore]
    exact .waits regular several meets hmore
  · rw [if_neg hmore, Split.seq_fill]
    exact .completes regular several meets (Nat.le_of_not_lt hmore)

theorem fate_accept (r : Reassembly) (f : Fragment) : r.Fate f (r.accept f) := by
  rw [accept]
  by_cases hbad : f.count = 0 ∨ f.count ≤ f.index ∨ maxFragments < f.count.toNat
  · rw [if_pos hbad]
    exact .refused _
  have regular := (regular_iff f).mpr hbad
  rw [if_neg hbad]
  by_cases hone : f.count = 1
  · rw [if_pos hone]
    exact .whole regular (congrArg UInt16.toNat hone)
  rw [if_neg hone]
  have several : 1 < f.count.toNat := by
    have hindex := regular.index
    have hne : f.count.toNat ≠ 1 := fun h => hone (UInt16.toNat_inj.mp h)
    omega
  cases hs : r.splits.get? f.split with
  | some s =>
    dsimp only
    by_cases hsame : s.parts.length = f.count.toNat
    · exact fate_join regular several (.known hs hsame)
    · rw [join, if_pos hsame]
      exact .refused _
  | none =>
    dsimp only
    by_cases hfull : maxPendingSplits ≤ (r.evictStale f.seq).splits.length
    · rw [if_pos hfull]
      exact .crowded hs hfull
    · rw [if_neg hfull]
      exact fate_join regular several (.begins hs (Nat.lt_of_not_le hfull))

/-- What a fragment does to the packets does not depend on what has been delivered, apart from what is
stale; and it leaves that as it was. -/
theorem accept_lastDelivered (r : Reassembly) (f : Fragment) :
    (r.accept f).2.lastDelivered = r.lastDelivered := by
  have hfate := r.fate_accept f
  generalize r.accept f = result at hfate ⊢
  cases hfate with
  | refused => rfl
  | crowded => rfl
  | whole => rfl
  | waits _ _ meets => cases meets <;> rfl
  | completes _ _ meets => cases meets <;> rfl

end Reassembly

/-- What happens at the receiving end of a link to a peer that may send anything: a datagram with the mark
of a fragment comes in, or a packet is taken. -/
inductive RawTurn
  | arrival (b : Bytes)
  | take

namespace RawTurn

def incident (a : Address) (id : ConnectionId) : RawTurn → Incident
  | arrival b => .arrive none 0 a (fragmentMark :: b)
  | take => .receive id

def bytes? : RawTurn → Option Bytes
  | arrival b => some b
  | take => none

end RawTurn

/-- The byte strings that come in. -/
def cameIn (ts : List RawTurn) : List Bytes := ts.filterMap RawTurn.bytes?

namespace Endpoint

/-- What is put into the inbox of a connection, whatever happens. -/
def gained (e : Endpoint) (id : ConnectionId) : List Incident → List (Except LinkError Bytes)
  | [] => []
  | i :: is => ((e.next i).inbox id).drop (e.inbox id).length ++ (e.next i).gained id is

variable {a : Address} {id : ConnectionId} {e : Endpoint} {r : Reassembly}

namespace Tends

/-- Whatever the bytes bring is put into the inbox, if there is room. -/
theorem hear (h : e.Tends a id r) (b : Bytes) :
    (e.next (RawTurn.arrival b |>.incident a id)).Tends a id (r.hear b).2 ∧
      (e.next (RawTurn.arrival b |>.incident a id)).inbox id =
        match (r.hear b).1 with
        | some got =>
          if (e.inbox id).length < inboxCapacity then e.inbox id ++ [got.map Prod.snd] else e.inbox id
        | none => e.inbox id := by
  obtain ⟨p, hp, rfl, rfl⟩ := h.peer
  have hnext : e.next (RawTurn.arrival b |>.incident a p.connection) = e.onFragment a b := by
    have hping : fragmentMark ≠ pingMark := by decide
    have hopen : fragmentMark ≠ openMark := by decide
    simp only [RawTurn.incident, next, handle, h.running, not_true_eq_false, if_false, if_neg hping,
      if_neg hopen, if_true]
  rw [hnext, onFragment, hp, Reassembly.hear, Reassembly.acceptBytes]
  dsimp only
  cases Scan.fragment.eval b with
  | error err => exact h.deliver _
  | ok f =>
    dsimp only
    generalize p.reassembly.accept f = accepted
    obtain ⟨accepted, s⟩ := accepted
    cases accepted with
    | error m => exact (h.keep s).deliver _
    | ok complete =>
      cases complete with
      | none => exact ⟨h.keep s, rfl⟩
      | some complete =>
        obtain ⟨seq, body⟩ := complete
        dsimp only [Except.mapError]
        generalize s.deliver seq = delivered
        obtain ⟨later, s⟩ := delivered
        cases later with
        | false => exact ⟨h.keep s, rfl⟩
        | true => exact (h.keep s).deliver _

end Tends

end Endpoint
end Datagram
end EditionGateway
