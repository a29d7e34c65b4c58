import EditionGateway.Compression.Deflate

/-!
The tokens of a byte string tell it from beginning to end, wherever the slots send the search for
copies: a copy is taken only where the bytes agree.
-/

namespace EditionGateway
namespace Deflate

theorem agreement_le (x : Array UInt8) (i j n : Nat) : agreement x i j n ≤ n := by
  induction n generalizing i j with
  | zero => exact Nat.le_refl 0
  | succ n ih =>
    rw [agreement]
    split
    · exact Nat.succ_le_succ (ih (i + 1) (j + 1))
    · exact Nat.zero_le _

theorem agreement_same {x : Array UInt8} {i j n k : Nat} (h : k < agreement x i j n) :
    x.getD (i + k) 0 = x.getD (j + k) 0 := by
  induction n generalizing i j k with
  | zero => cases h
  | succ n ih =>
    rw [agreement] at h
    split at h
    case isTrue hsame =>
      cases k with
      | zero => exact hsame
      | succ k =>
        have hnext := ih (Nat.lt_of_succ_lt_succ h)
        rwa [Nat.add_right_comm, Nat.add_right_comm j] at hnext
    case isFalse => cases h

/-- The tokens tell the bytes of `x` from `i` on. -/
inductive Tells (x : Bytes) : Nat → List Token → Prop
  | finish : Tells x x.length []
  | literal {i : Nat} {ts : List Token} (h : i < x.length) :
    Tells x (i + 1) ts → Tells x i (.literal x[i] :: ts)
  | copy {i length distance : Nat} {ts : List Token} (hlength : 3 ≤ length ∧ length ≤ maxCopy)
    (hdistance : 0 < distance ∧ distance ≤ Inflate.windowLength) (hback : distance ≤ i)
    (hend : i + length ≤ x.length) (hsame : ∀ k < length, x[i + k]? = x[i + k - distance]?) :
    Tells x (i + length) ts → Tells x i (.copy length distance :: ts)

/-- A copy that is found repeats the bytes it stands for. -/
theorem of_copyFrom {x : Array UInt8} {i seen n : Nat} (h : copyFrom x i seen = n + 1) :
    (0 < seen ∧ seen ≤ i) ∧ i + 1 - seen ≤ Inflate.windowLength ∧ n + 1 ≤ maxCopy ∧
      i + (n + 1) ≤ x.size ∧ ∀ k < n + 1, x.getD (i + k) 0 = x.getD (seen - 1 + k) 0 := by
  rw [copyFrom] at h
  split at h
  case isTrue => cases h
  case isFalse hseen =>
    rw [copyAt] at h
    split at h
    case isFalse => cases h
    case isTrue hnear =>
      have hle := agreement_le x i (seen - 1) (min maxCopy (x.size - i))
      rw [h] at hle
      refine ⟨by omega, by omega, by omega, by omega, ?_⟩
      intro k hk
      exact agreement_same (h ▸ hk)

theorem Tells.ofCopy {x : Array UInt8} {i seen n : Nat} {ts : List Token}
    (hcopy : copyFrom x i seen = n + 3) (h : Tells x.toList (i + (n + 3)) ts) :
    Tells x.toList i (.copy (n + 3) (i + 1 - seen) :: ts) := by
  obtain ⟨hseen, hnear, hlong, hend, hsame⟩ := of_copyFrom hcopy
  refine .copy ⟨by omega, hlong⟩ ⟨by omega, hnear⟩ (by omega) hend ?_ h
  intro k hk
  have hagree := hsame k hk
  have hplace : seen - 1 + k = i + k - (i + 1 - seen) := by omega
  have hhere : i + k < x.size := by omega
  have hthere : i + k - (i + 1 - seen) < x.size := by omega
  rw [hplace, Array.getD_eq_getD_getElem?, Array.getD_eq_getD_getElem?,
    Array.getElem?_eq_getElem hhere, Array.getElem?_eq_getElem hthere] at hagree
  rw [Array.getElem?_toList, Array.getElem?_toList, Array.getElem?_eq_getElem hhere,
    Array.getElem?_eq_getElem hthere]
  exact congrArg some hagree

theorem tells_tokens (x : Array UInt8) (slots : Array Nat) (i : Nat) (done : List Token) (hi : i ≤ x.size) :
    ∃ ts, tokens x slots i done = done.reverse ++ ts ∧ Tells x.toList i ts := by
  fun_induction tokens x slots i done with
  | case1 slots i done h s seen slots' n hcopy ih =>
    obtain ⟨-, -, -, hend, -⟩ := of_copyFrom hcopy
    obtain ⟨ts, hts, htells⟩ := ih hend
    refine ⟨_ :: ts, ?_, .ofCopy hcopy htells⟩
    rw [hts, List.reverse_cons, List.append_assoc]
    rfl
  | case2 slots i done h s seen slots' hnot ih =>
    obtain ⟨ts, hts, htells⟩ := ih h
    have hlt : i < x.toList.length := h
    refine ⟨_ :: ts, ?_, .literal hlt htells⟩
    rw [hts, List.reverse_cons, List.append_assoc]
    rfl
  | case3 slots i done h =>
    have hend : i = x.toList.length := by
      rw [Array.length_toList]
      omega
    refine ⟨[], (List.append_nil _).symm, ?_⟩
    rw [hend]
    exact .finish

end Deflate
end EditionGateway
