import EditionGateway.Link.Varint

/-!
Reading a length from the front of a byte string. A length that has been written is read back, and only
the bytes that it takes up are looked at.
-/

namespace EditionGateway
namespace Varint

theorem peekFrom_append {value width left : Nat} {s : Bytes}
    (h : peekFrom value width left s ≠ .ok none) (x : Bytes) :
    peekFrom value width left (s ++ x) = peekFrom value width left s := by
  induction left generalizing value width s with
  | zero => rfl
  | succ left ih =>
    cases s with
    | nil => exact absurd rfl h
    | cons b s =>
      rw [List.cons_append, peekFrom, peekFrom]
      rw [peekFrom] at h
      split
      case isTrue => rfl
      case isFalse hb =>
        rw [if_neg hb] at h
        exact ih h

/-- A length that is complete does not depend on what follows. -/
theorem peek_append {s : Bytes} (h : peek s ≠ .ok none) (x : Bytes) : peek (s ++ x) = peek s :=
  peekFrom_append h x

theorem width_of_peekFrom {value width left n w : Nat} {s : Bytes}
    (h : peekFrom value width left s = .ok (some (n, w))) : width < w ∧ w ≤ width + s.length := by
  induction left generalizing value width s with
  | zero => cases h
  | succ left ih =>
    cases s with
    | nil => cases h
    | cons b s =>
      rw [List.length_cons]
      rw [peekFrom] at h
      split at h
      case isTrue =>
        cases h
        omega
      case isFalse =>
        have hw := ih h
        omega

theorem width_of_peek {n w : Nat} {s : Bytes} (h : peek s = .ok (some (n, w))) :
    0 < w ∧ w ≤ s.length := by
  have hw := width_of_peekFrom h
  omega

theorem peekFrom_take {value width left n w : Nat} {s : Bytes}
    (h : peekFrom value width left s = .ok (some (n, width + w))) (x : Bytes) :
    peekFrom value width left (s.take w ++ x) = .ok (some (n, width + w)) := by
  induction left generalizing value width w s with
  | zero => cases h
  | succ left ih =>
    cases s with
    | nil => cases h
    | cons b s =>
      rw [peekFrom] at h
      split at h
      case isTrue hb =>
        have hw : w = 1 := by
          injections
          omega
        subst hw
        rw [List.take_succ_cons, List.cons_append, peekFrom, if_pos hb]
        exact h
      case isFalse hb =>
        obtain ⟨w, rfl⟩ : ∃ v, w = v + 1 := by
          have hw := width_of_peekFrom h
          exact ⟨w - 1, by omega⟩
        have hwidth : width + (w + 1) = width + 1 + w := by omega
        rw [hwidth] at h ⊢
        rw [List.take_succ_cons, List.cons_append, peekFrom, if_neg hb]
        exact ih h

/-- A length is complete with the bytes that it takes up. -/
theorem peek_take {n w : Nat} {s : Bytes} (h : peek s = .ok (some (n, w))) (x : Bytes) :
    peek (s.take w ++ x) = .ok (some (n, w)) := by
  rw [← Nat.zero_add w] at h
  have htake := peekFrom_take h x
  rwa [Nat.zero_add] at htake

theorem write_of_small {n : Nat} (h : n < 128) : write n = [UInt8.ofNat n] := by rw [write, dif_pos h]

theorem length_write_le {n k : Nat} (hn : n < Nat.pow 128 (k + 1)) : (write n).length ≤ k + 1 := by
  induction k generalizing n with
  | zero =>
    rw [write_of_small hn]
    exact Nat.le_refl 1
  | succ k ih =>
    rw [write]
    split
    · exact Nat.le_add_left 1 (k + 1)
    · have hrest : n / 128 < Nat.pow 128 (k + 1) := Nat.div_lt_of_lt_mul (by rwa [Nat.mul_comm])
      exact Nat.succ_le_succ (ih hrest)

theorem peekFrom_write_small {left n : Nat} (value width : Nat) (h : n < 128) {x : Bytes} :
    peekFrom value width (left + 1) (write n ++ x) =
      .ok (some ((value + n * Nat.pow 128 width) % UInt32.size, width + (write n).length)) := by
  have hbyte : (UInt8.ofNat n).toNat = n := by
    rw [UInt8.toNat_ofNat']
    omega
  have hlast : UInt8.ofNat n < 128 := by
    rw [UInt8.lt_iff_toNat_lt, hbyte]
    exact h
  rw [write_of_small h, List.cons_append, peekFrom, hbyte, if_pos hlast, Nat.mod_eq_of_lt h]
  rfl

theorem peekFrom_write {left n : Nat} (value width : Nat) (h : n < Nat.pow 128 (left + 1)) (x : Bytes) :
    peekFrom value width (left + 1) (write n ++ x) =
      .ok (some ((value + n * Nat.pow 128 width) % UInt32.size, width + (write n).length)) := by
  induction left generalizing value width n with
  | zero =>
    have hn : n < 128 := h
    exact peekFrom_write_small value width hn
  | succ left ih =>
    by_cases hn : n < 128
    case pos => exact peekFrom_write_small value width hn
    case neg =>
      have hbyte : (UInt8.ofNat (n % 128 + 128)).toNat = n % 128 + 128 := by
        rw [UInt8.toNat_ofNat']
        omega
      have hlast : ¬ UInt8.ofNat (n % 128 + 128) < 128 := by
        rw [UInt8.lt_iff_toNat_lt, hbyte]
        exact Nat.not_lt.mpr (Nat.le_add_left _ _)
      have hrest : n / 128 < Nat.pow 128 (left + 1) := by
        rw [Nat.pow_eq, Nat.pow_succ] at h
        exact Nat.div_lt_of_lt_mul (by rwa [Nat.mul_comm] at h)
      have hlow : (n % 128 + 128) % 128 = n % 128 := by omega
      -- the seven low bits go to their place, the others are read above them
      have hvalue : value + n % 128 * Nat.pow 128 width + n / 128 * Nat.pow 128 (width + 1) =
          value + n * Nat.pow 128 width := by
        have hpow : Nat.pow 128 (width + 1) = 128 * Nat.pow 128 width := Nat.mul_comm _ _
        rw [hpow, ← Nat.mul_assoc, Nat.add_assoc, ← Nat.add_mul, Nat.mul_comm (n / 128) 128,
          Nat.mod_add_div]
      rw [write, dif_neg hn, List.cons_append, peekFrom, hbyte, hlow, if_neg hlast, ih _ _ hrest, hvalue,
        List.length_cons]
      congr 3
      omega

/-- A length is read back up to its lowest 32 bits. -/
theorem peek_write {n : Nat} (h : n < Nat.pow 128 maxWidth) (x : Bytes) :
    peek (write n ++ x) = .ok (some (n % UInt32.size, (write n).length)) := by
  have hread := peekFrom_write 0 0 h x
  have hone : n * Nat.pow 128 0 = n := Nat.mul_one n
  rwa [hone, Nat.zero_add, Nat.zero_add] at hread

end Varint
end EditionGateway
