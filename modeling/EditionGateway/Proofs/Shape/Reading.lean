import EditionGateway.Binary.Number

/-!
Reading what has been written. A number is read back from its binary form, whatever follows, and what
a reader has read does not depend on what follows. Together the two leave no other way to read the
bytes: `Steady.complete_of_prefix` and `Reads.complete_append` say that less or more of them is refused.
-/

namespace EditionGateway.Binary
namespace Reader

variable {α β : Type}

theorem bind_eq_ok {r : Reader α} {f : α → Reader β} {s u : Bytes} {b : β} :
    (r >>= f) s = .ok (b, u) ↔ ∃ a t, r s = .ok (a, t) ∧ f a t = .ok (b, u) := by
  rw [bind_apply]
  cases r s with
  | error e => simp
  | ok at' => exact ⟨fun h => ⟨at'.1, at'.2, rfl, h⟩, by rintro ⟨a, t, h, h'⟩; cases h; exact h'⟩

/-- What one reader reads the other one reads too, whatever follows. -/
def Extends (r r' : Reader α) : Prop :=
  ∀ ⦃s t : Bytes⦄ ⦃a : α⦄, r s = .ok (a, t) → ∀ x, r' (s ++ x) = .ok (a, t ++ x)

/-- What follows the bytes of a value makes no difference to it. -/
def Steady (r : Reader α) : Prop := r.Extends r

/-- The bytes are read as this value, whatever follows. -/
def Reads (r : Reader α) (b : Bytes) (a : α) : Prop := ∀ x, r (b ++ x) = .ok (a, x)

section Steady

theorem steady_pure (a : α) : (pure a : Reader α).Steady := by
  intro s t a h x
  cases h
  rfl

theorem steady_fail (e : Fault) : (fail e : Reader α).Steady := nofun

theorem steady_byte : byte.Steady := by
  intro s t a h x
  cases s with
  | nil => cases h
  | cons b s =>
    cases h
    rfl

theorem steady_take (n : Nat) : (take n).Steady := by
  intro s t a h x
  rw [take] at h ⊢
  split at h
  case isFalse => cases h
  case isTrue hlen =>
    cases h
    have hle : n ≤ s.length := by
      rw [List.length_take] at hlen
      omega
    rw [List.take_append_of_le_length hle, List.drop_append_of_le_length hle]
    exact if_pos hlen

theorem Extends.bind {r r' : Reader α} {f f' : α → Reader β} (hr : r.Extends r')
    (hf : ∀ a, (f a).Extends (f' a)) : (r >>= f).Extends (r' >>= f') := by
  intro s u b h x
  obtain ⟨a, t, ha, hb⟩ := bind_eq_ok.mp h
  exact bind_eq_ok.mpr ⟨a, t ++ x, hr ha x, hf a hb x⟩

theorem Steady.bind {r : Reader α} {f : α → Reader β} (hr : r.Steady) (hf : ∀ a, (f a).Steady) :
    (r >>= f).Steady :=
  Extends.bind hr hf

theorem Steady.ite {c : Prop} [Decidable c] {r r' : Reader α} (hr : r.Steady) (hr' : r'.Steady) :
    (if c then r else r').Steady := by
  split
  · exact hr
  · exact hr'

theorem steady_ofOption (e : Fault) (o : Option α) : (ofOption e o).Steady := by
  cases o with
  | none => exact steady_fail e
  | some a => exact steady_pure a

theorem Extends.repeatInto {r r' : Reader α} (hr : r.Extends r') (n : Nat) (done : List α) :
    (repeatInto r n done).Extends (repeatInto r' n done) := by
  induction n generalizing done with
  | zero =>
    intro s t as h x
    cases h
    rfl
  | succ n ih =>
    intro s t as h x
    rw [Reader.repeatInto] at h ⊢
    cases hs : r s with
    | error e =>
      rw [hs] at h
      cases h
    | ok at' =>
      rw [hs] at h
      rw [hr hs x]
      exact ih _ h x

theorem Extends.replicate {r r' : Reader α} (hr : r.Extends r') (n : Nat) :
    (replicate n r).Extends (replicate n r') :=
  hr.repeatInto n []

end Steady

section Reads

theorem reads_pure (a : α) : (pure a : Reader α).Reads [] a := fun _ => rfl

theorem reads_byte (b : UInt8) : byte.Reads [b] b := fun _ => rfl

theorem reads_take (b : Bytes) : (take b.length).Reads b b := by
  intro x
  rw [take, List.take_left, List.drop_left]
  exact if_pos rfl

theorem Reads.bind {r : Reader α} {f : α → Reader β} {b c : Bytes} {a : α} {d : β} (hr : r.Reads b a)
    (hf : (f a).Reads c d) : (r >>= f).Reads (b ++ c) d := by
  intro x
  rw [List.append_assoc, bind_of_ok (hr (c ++ x))]
  exact hf x

theorem Reads.map {r : Reader α} {b : Bytes} {a : α} (hr : r.Reads b a) (f : α → β) :
    (r >>= fun a => pure (f a)).Reads b (f a) := by
  have h := hr.bind (f := fun a => pure (f a)) (reads_pure (f a))
  rwa [List.append_nil] at h

theorem Reads.repeatInto {r : Reader α} {write : α → Bytes} {as : List α}
    (hr : ∀ a ∈ as, r.Reads (write a) a) (done : List α) :
    (repeatInto r as.length done).Reads (as.flatMap write) (done.reverse ++ as) := by
  induction as generalizing done with
  | nil =>
    intro x
    rw [List.append_nil]
    rfl
  | cons a as ih =>
    intro x
    rw [List.length_cons, Reader.repeatInto, List.flatMap_cons, List.append_assoc,
      hr a List.mem_cons_self]
    have h := ih (fun a h => hr a (List.mem_cons_of_mem _ h)) (a :: done) x
    rwa [List.reverse_cons, List.append_assoc] at h

theorem Reads.replicate {r : Reader α} {write : α → Bytes} {as : List α}
    (hr : ∀ a ∈ as, r.Reads (write a) a) : (replicate as.length r).Reads (as.flatMap write) as :=
  Reads.repeatInto hr []

theorem Reads.complete {r : Reader α} {b : Bytes} {a : α} (h : r.Reads b a) : r.complete b = .ok a := by
  have hb := h []
  rw [List.append_nil] at hb
  rw [Reader.complete, hb]

theorem Reads.complete_append {r : Reader α} {b x : Bytes} {a : α} (h : r.Reads b a) (hx : x ≠ []) :
    r.complete (b ++ x) = .error .invalid := by
  obtain ⟨y, x, rfl⟩ := List.exists_cons_of_ne_nil hx
  rw [Reader.complete, h]

/-- Less than all bytes of a value are not the bytes of any value. -/
theorem Steady.complete_of_prefix {r : Reader α} (hr : r.Steady) {b c x : Bytes} {a : α}
    (h : r.Reads b a) (hb : b = c ++ x) (hx : x ≠ []) : ∃ e, r.complete c = .error e := by
  rw [Reader.complete]
  split
  case h_1 a' hc =>
    -- then the same value would be read from all bytes, with `x` left over
    have hall := h []
    rw [List.append_nil, hb, hr hc x] at hall
    cases hall
    exact absurd rfl hx
  case h_2 => exact ⟨_, rfl⟩
  case h_3 => exact ⟨_, rfl⟩

end Reads

end Reader

open Reader

/-! ### Whole numbers -/

theorem writeNat_ne_nil (n : Nat) : writeNat n ≠ [] := by
  unfold writeNat
  split
  · nofun
  · split
    · nofun
    · split <;> nofun

theorem length_writeNat_le (n : Nat) : (writeNat n).length ≤ 9 := by
  unfold writeNat
  split
  · exact Nat.le_add_left 1 8
  · split
    · exact Nat.le_add_left 3 6
    · split
      · exact Nat.le_add_left 5 4
      · exact Nat.le_refl 9

theorem steady_readNat : readNat.Steady := by
  have word (width : Nat) : (do return Bytes.leValue (← Reader.take width) : Reader Nat).Steady :=
    (steady_take width).bind fun b => steady_pure _
  refine steady_byte.bind fun mark => ?_
  exact .ite (steady_pure _) (.ite (word 2) (.ite (word 4) (.ite (word 8) (steady_fail _))))

theorem reads_le (width : Nat) {n : Nat} (h : n < Nat.pow 256 width) :
    (do return Bytes.leValue (← Reader.take width) : Reader Nat).Reads (Bytes.le width n) n := by
  have htake := reads_take (Bytes.le width n)
  rw [Bytes.length_le] at htake
  have hvalue : Bytes.leValue (Bytes.le width n) = n := by
    rw [Bytes.leValue_le, Nat.mod_eq_of_lt h]
  have hread := htake.map Bytes.leValue
  rwa [hvalue] at hread

/-- A number below `2 ^ 64` is read back from its shortest form. -/
theorem reads_writeNat {n : Nat} (h : n < UInt64.size) : readNat.Reads (writeNat n) n := by
  have marked {mark : UInt8} {width : Nat} (hn : n < Nat.pow 256 width) (hmark : ∀ x,
      readNat (mark :: x) = (do return Bytes.leValue (← Reader.take width) : Reader Nat) x) :
      readNat.Reads (mark :: Bytes.le width n) n := fun x => (hmark _).trans (reads_le width hn x)
  unfold writeNat
  split
  case isTrue hsmall =>
    intro x
    have hbyte : (UInt8.ofNat n).toNat = n := by
      rw [UInt8.toNat_ofNat']
      omega
    have hle : UInt8.ofNat n ≤ 250 := by
      rw [UInt8.le_iff_toNat_le, hbyte]
      exact hsmall
    rw [readNat, bind_of_ok (reads_byte (UInt8.ofNat n) x)]
    dsimp only
    rw [if_pos hle, hbyte]
    rfl
  case isFalse =>
    split
    case isTrue h16 => exact marked h16 fun _ => rfl
    case isFalse =>
      split
      case isTrue h32 => exact marked h32 fun _ => rfl
      case isFalse => exact marked h fun _ => rfl

theorem steady_readBelow (bound : Nat) : (readBelow bound).Steady :=
  steady_readNat.bind fun _ => .ite (steady_pure _) (steady_fail _)

theorem reads_below {n bound : Nat} (h : n < bound) (hbound : bound ≤ UInt64.size) :
    (readBelow bound).Reads (writeNat n) n := by
  have hnat := reads_writeNat (Nat.lt_of_lt_of_le h hbound)
  -- the check passes and uses up nothing more
  have hread := hnat.bind (f := fun n => if n < bound then pure n else Reader.fail .invalid) (c := [])
    (d := n) (by rw [if_pos h]; exact reads_pure n)
  rwa [List.append_nil] at hread

theorem steady_readInt (size : Nat) : (readInt size).Steady :=
  steady_readNat.bind fun _ => .ite (steady_pure _) (steady_fail _)

theorem zigzag_lt {i : Int} {half : Nat} (h : -(half : Int) ≤ i) (h' : i < half) :
    zigzag i < 2 * half := by
  cases i with
  | ofNat n =>
    rw [zigzag]
    have hn : (n : Int) < half := h'
    omega
  | negSucc n =>
    rw [zigzag]
    rw [Int.negSucc_eq] at h
    omega

theorem reads_int (size : Nat) {i : Int} (hsize : size ≤ UInt64.size)
    (h : -((size / 2 : Nat) : Int) ≤ i) (h' : i < (size / 2 : Nat)) :
    (readInt size).Reads (writeInt i) i := by
  have hlt : zigzag i < UInt64.size := by
    have hzigzag := zigzag_lt h h'
    omega
  have hread := (reads_writeNat hlt).bind (f := fun n => do
      let i := unzigzag n
      if -((size / 2 : Nat) : Int) ≤ i ∧ i < (size / 2 : Nat) then return i else Reader.fail .invalid)
    (c := []) (d := i) (by
      dsimp only
      rw [unzigzag_zigzag, if_pos ⟨h, h'⟩]
      exact reads_pure i)
  rwa [List.append_nil] at hread

end EditionGateway.Binary
