import EditionGateway.Proofs.Compression.Bits

/-!
The steps of inflating. As long as the output keeps to its limit, each step uses up the bits in front
of the reader and leaves the others, whatever they are.
-/

namespace EditionGateway

/-- What has not been used: the bits that are held and those of the bytes that follow. -/
def Inflater.pending (s : Inflater) : List Nat := lowBits s.held s.hold ++ Bytes.bits s.input

/-- The output so far is `o`, with room left, and the bits `bs` come next. -/
structure Inflater.Stands (limit : Nat) (o : Bytes) (bs : List Nat) (s : Inflater) : Prop where
  limit_eq : s.limit = limit
  output : s.output.toList = o
  room : o.length ≤ limit
  held : s.held < 8
  pending : s.pending = bs

namespace Inflate

variable {α β : Type} {limit : Nat} {o o' o'' : Bytes} {bs bs' bs'' : List Nat}

/-- The step gives `a` and leads on from one place to another. -/
def Leads (limit : Nat) (r : Inflate α) (o : Bytes) (bs : List Nat) (a : α) (o' : Bytes)
    (bs' : List Nat) : Prop :=
  ∀ s, Inflater.Stands limit o bs s → ∃ s', r s = .ok (a, s') ∧ Inflater.Stands limit o' bs' s'

theorem leads_pure (a : α) : Leads limit (pure a) o bs a o bs := fun s h => ⟨s, rfl, h⟩

theorem bind_of_ok {r : Inflate α} {f : α → Inflate β} {s s' : Inflater} {a : α}
    (h : r s = .ok (a, s')) : (r >>= f) s = f a s' := by
  change (r s >>= fun x => f x.1 x.2) = f a s'
  rw [h]
  rfl

theorem Leads.bind {r : Inflate α} {f : α → Inflate β} {a : α} {b : β}
    (hr : Leads limit r o bs a o' bs') (hf : Leads limit (f a) o' bs' b o'' bs'') :
    Leads limit (r >>= f) o bs b o'' bs'' := by
  intro s hs
  obtain ⟨s', hrun, hs'⟩ := hr s hs
  rw [bind_of_ok hrun]
  exact hf s' hs'

theorem get_eq (s : Inflater) : (get : Inflate Inflater) s = .ok (s, s) := rfl

theorem handOver_eq {s : Inflater} (h : s.output.size ≤ s.limit) : handOver s = .ok ((), s) := by
  rw [handOver, bind_of_ok (get_eq s), if_neg (Nat.not_lt.mpr h)]
  rfl

theorem nextByte_eq {s : Inflater} {b : UInt8} {r : Bytes} (hinput : s.input = b :: r)
    (h : s.output.size ≤ s.limit) :
    nextByte s = .ok (b, { s with input := r, taken := s.taken + 1 }) := by
  rw [nextByte, bind_of_ok (get_eq s), hinput]
  dsimp only
  split
  · rw [bind_of_ok (handOver_eq h)]
    rfl
  · rfl

end Inflate

namespace Inflater.Stands

variable {limit : Nat} {o : Bytes} {bs : List Nat} {s : Inflater}

theorem size_le (h : s.Stands limit o bs) : s.output.size ≤ s.limit := by
  rw [h.limit_eq, ← Array.length_toList, h.output]
  exact h.room

theorem length_pending (h : s.Stands limit o bs) : s.held + 8 * s.input.length = bs.length := by
  rw [← h.pending, Inflater.pending, List.length_append, length_lowBits, Bytes.length_bits]

/-- Between two bytes no bits are held. -/
theorem between {b : Bytes} (h : s.Stands limit o (Bytes.bits b)) : s.held = 0 ∧ s.input = b := by
  have hlength := h.length_pending
  have hheld := h.held
  have hpending := h.pending
  rw [Bytes.length_bits] at hlength
  have hzero : s.held = 0 := by omega
  rw [Inflater.pending, hzero] at hpending
  exact ⟨hzero, Bytes.bits_injective hpending⟩

end Inflater.Stands

namespace Inflate

variable {α β : Type} {limit : Nat} {o : Bytes} {bs : List Nat}

theorem leads_handOver : Leads limit handOver o bs () o bs :=
  fun s h => ⟨s, handOver_eq h.size_le, h⟩

theorem leads_nextByte (b : UInt8) (r : Bytes) :
    Leads limit nextByte o (Bytes.bits (b :: r)) b o (Bytes.bits r) := by
  intro s h
  obtain ⟨hheld, hinput⟩ := h.between
  refine ⟨_, nextByte_eq hinput h.size_le, h.limit_eq, h.output, h.room, h.held, ?_⟩
  rw [Inflater.pending, hheld]
  rfl

theorem leads_bit {b : Nat} : Leads limit bit o (b :: bs) b o bs := by
  intro s h
  have hpending := h.pending
  rw [Inflater.pending] at hpending
  rw [bit, bind_of_ok (get_eq s)]
  split
  case isTrue hheld =>
    rw [hheld] at hpending
    cases hinput : s.input with
    | nil =>
      rw [hinput] at hpending
      cases hpending
    | cons x r =>
      rw [hinput, Bytes.bits_cons] at hpending
      obtain ⟨rfl, rfl⟩ := List.cons.inj hpending
      rw [bind_of_ok (nextByte_eq hinput h.size_le)]
      refine ⟨{ s with input := r, taken := s.taken + 1, hold := x.toNat / 2, held := 7 }, rfl,
        h.limit_eq, h.output, h.room, Nat.lt_succ_self 7, rfl⟩
  case isFalse hheld =>
    obtain ⟨n, hn⟩ : ∃ n, s.held = n + 1 := ⟨s.held - 1, by omega⟩
    have hlt := h.held
    rw [hn] at hpending
    obtain ⟨rfl, rfl⟩ := List.cons.inj hpending
    refine ⟨{ s with hold := s.hold / 2, held := n }, ?_, h.limit_eq, h.output, h.room, ?_, rfl⟩
    · rw [hn]
      rfl
    · dsimp only
      omega

theorem leads_bits {n v : Nat} (h : v < Nat.pow 2 n) :
    Leads limit (bits n) o (lowBits n v ++ bs) v o bs := by
  induction n generalizing v with
  | zero =>
    have hv : v = 0 := Nat.lt_one_iff.mp h
    subst hv
    exact leads_pure 0
  | succ n ih =>
    have hhalf : v / 2 < Nat.pow 2 n := by
      have hpow : Nat.pow 2 (n + 1) = 2 * Nat.pow 2 n := Nat.mul_comm _ _
      rw [hpow] at h
      omega
    have hv : v % 2 + 2 * (v / 2) = v := Nat.mod_add_div v 2
    have hread : Leads limit (bits (n + 1)) o (lowBits (n + 1) v ++ bs) (v % 2 + 2 * (v / 2)) o bs :=
      leads_bit.bind ((ih hhalf).bind (leads_pure _))
    rwa [hv] at hread

/-- What is left of a byte is dropped. -/
theorem leads_align {pad : List Nat} (hpad : pad.length < 8) (b : Bytes) :
    Leads limit align o (pad ++ Bytes.bits b) () o (Bytes.bits b) := by
  intro s h
  have hlength := h.length_pending
  have hheld := h.held
  have hpending := h.pending
  rw [List.length_append, Bytes.length_bits] at hlength
  rw [Inflater.pending] at hpending
  have hsame : (lowBits s.held s.hold).length = pad.length := by
    rw [length_lowBits]
    omega
  obtain ⟨-, hinput⟩ := List.append_inj hpending hsame
  refine ⟨{ s with hold := 0, held := 0 }, rfl, h.limit_eq, h.output, h.room, Nat.zero_lt_succ 7, ?_⟩
  exact hinput

theorem leads_put {b : UInt8} (h : o.length < limit) : Leads limit (put b) o bs () (o ++ [b]) bs := by
  intro s hs
  have hrun : put b s = .ok ((), { s with output := s.output.push b }) := by
    rw [put, bind_of_ok (get_eq s)]
    split
    · rw [bind_of_ok (handOver_eq hs.size_le)]
      rfl
    · rfl
  refine ⟨_, hrun, hs.limit_eq, ?_, ?_, hs.held, hs.pending⟩
  · rw [Array.toList_push, hs.output]
  · rw [List.length_append]
    exact h

theorem leads_word {n : Nat} (h : n < Nat.pow 256 2) (b : Bytes) :
    Leads limit word o (Bytes.bits (Bytes.le 2 n ++ b)) n o (Bytes.bits b) := by
  have hvalue : (UInt8.ofNat n).toNat + 256 * (UInt8.ofNat (n / 256)).toNat = n := by
    have h : n < 65536 := h
    rw [UInt8.toNat_ofNat', UInt8.toNat_ofNat']
    omega
  have hread : Leads limit word o (Bytes.bits (Bytes.le 2 n ++ b))
      ((UInt8.ofNat n).toNat + 256 * (UInt8.ofNat (n / 256)).toNat) o (Bytes.bits b) :=
    (leads_nextByte _ _).bind ((leads_nextByte _ _).bind (leads_pure _))
  rwa [hvalue] at hread

theorem leads_putInput (b r : Bytes) (h : o.length + b.length ≤ limit) :
    Leads limit (putInput b.length) o (Bytes.bits (b ++ r)) () (o ++ b) (Bytes.bits r) := by
  induction b generalizing o with
  | nil =>
    rw [List.append_nil]
    exact leads_pure ()
  | cons x b ih =>
    rw [List.length_cons] at h ⊢
    have hrest := @ih (o ++ [x]) (by rw [List.length_append, List.length_singleton]; omega)
    rw [List.append_assoc] at hrest
    exact (leads_nextByte x _).bind ((leads_put (by omega)).bind hrest)

/-- A copy repeats what lies `distance` back, which may be what it has put out itself. -/
theorem leads_copy {x : Bytes} {i distance n : Nat} (hdistance : 0 < distance) (hback : distance ≤ i)
    (hend : i + n ≤ x.length) (hroom : x.length ≤ limit)
    (hsame : ∀ k < n, x[i + k]? = x[i + k - distance]?) :
    Leads limit (copy distance n) (x.take i) bs () (x.take (i + n)) bs := by
  induction n generalizing i with
  | zero => exact leads_pure ()
  | succ n ih =>
    have hi : i < x.length := by omega
    have hlook : Leads limit
        (modifyGet fun s : Inflater =>
          (if distance ≤ s.output.size then s.output.getD (s.output.size - distance) 0 else 0, s))
        (x.take i) bs x[i] (x.take i) bs := by
      intro s h
      have hsize : s.output.size = i := by
        rw [← Array.length_toList, h.output, List.length_take]
        omega
      have hbyte : s.output.getD (s.output.size - distance) 0 = x[i] := by
        have hfirst := hsame 0 (by omega)
        rw [Nat.add_zero, List.getElem?_eq_getElem hi] at hfirst
        rw [Array.getD_eq_getD_getElem?, ← Array.getElem?_toList, h.output, hsize,
          List.getElem?_take_of_lt (by omega), ← hfirst]
        rfl
      refine ⟨s, ?_, h⟩
      change Except.ok ((if distance ≤ s.output.size then _ else _), s) = _
      rw [hbyte, if_pos (by omega)]
    have hput : Leads limit (put x[i]) (x.take i) bs () (x.take (i + 1)) bs := by
      rw [List.take_succ_eq_append_getElem hi]
      exact leads_put (by rw [List.length_take]; omega)
    -- the rest is a copy from one place on, with the same distance
    have hrest : Leads limit (copy distance n) (x.take (i + 1)) bs () (x.take (i + (n + 1))) bs := by
      have hlater : ∀ k < n, x[i + 1 + k]? = x[i + 1 + k - distance]? := by
        intro k hk
        have hnext := hsame (k + 1) (by omega)
        rwa [← Nat.add_assoc, Nat.add_right_comm] at hnext
      have hcopy := ih (i := i + 1) (by omega) (by omega) hlater
      rwa [Nat.add_right_comm, Nat.add_assoc] at hcopy
    exact hlook.bind (hput.bind hrest)

/-- The way down a code tree that some bits lead. -/
def descend (symbols : Array Nat) (code first index : Nat) :
    List Nat → List Nat → Option (Nat × List Nat)
  | count :: counts, b :: bs =>
    let code := 2 * code + b
    if code < first + count then some (symbols.getD (index + (code - first)) 0, bs)
    else descend symbols code (2 * (first + count)) (index + count) counts bs
  | _, _ => none

theorem descend_append {symbols : Array Nat} {code first index v : Nat} {counts bs r : List Nat}
    (h : descend symbols code first index counts bs = some (v, r)) (x : List Nat) :
    descend symbols code first index counts (bs ++ x) = some (v, r ++ x) := by
  induction counts generalizing code first index bs with
  | nil => cases h
  | cons count counts ih =>
    cases bs with
    | nil => cases h
    | cons b bs =>
      rw [List.cons_append, descend]
      rw [descend] at h
      split at h
      case isTrue hlt =>
        cases h
        exact if_pos hlt
      case isFalse hlt =>
        rw [if_neg hlt]
        exact ih h

theorem leads_walk {symbols : Array Nat} {code first index v : Nat} {counts bs bs' : List Nat}
    (h : descend symbols code first index counts bs = some (v, bs')) :
    Leads limit (walk symbols code first index counts) o bs v o bs' := by
  induction counts generalizing code first index bs with
  | nil => cases h
  | cons count counts ih =>
    cases bs with
    | nil => cases h
    | cons b bs =>
      rw [descend] at h
      refine leads_bit.bind ?_
      dsimp only
      split at h
      case isTrue hlt =>
        cases h
        rw [if_pos hlt]
        exact leads_pure _
      case isFalse hlt =>
        rw [if_neg hlt]
        exact ih h

end Inflate
end EditionGateway
