import EditionGateway.Proofs.Link.Framing
import Mathlib.Data.Nat.Digits.Defs

/-!
The number that a length denotes, and the number that is read for it. Five bytes can denote more than
32 bits hold; what is read then is less than what is denoted (`exact_iff_fits`).
-/

namespace EditionGateway
namespace Varint

/-- The number whose base-128 digits are the low seven bits of the bytes, lowest first. -/
def denoted (s : Bytes) : Nat := Nat.ofDigits 128 (s.map fun b => b.toNat % 128)

/-- How many bytes in front have their highest bit set, so that another one has to follow. -/
def continuing (s : Bytes) : Nat := (s.takeWhile fun b => 128 ≤ b).length

section Denoted

variable (s : Bytes) (b : UInt8)

@[simp] theorem denoted_nil : denoted [] = 0 := rfl

theorem denoted_cons : denoted (b :: s) = b.toNat % 128 + 128 * denoted s := Nat.ofDigits_cons

theorem denoted_concat : denoted (s ++ [b]) = denoted s + 128 ^ s.length * (b.toNat % 128) := by
  rw [denoted, List.map_append, Nat.ofDigits_append, List.length_map]
  exact congrArg _ (congrArg _ Nat.ofDigits_singleton)

theorem denoted_lt : denoted s < 128 ^ s.length := by
  rw [← List.length_map (fun b : UInt8 => b.toNat % 128)]
  refine Nat.ofDigits_lt_base_pow_length (by decide) fun d hd => ?_
  obtain ⟨b, -, rfl⟩ := List.mem_map.mp hd
  exact Nat.mod_lt _ (by decide)

end Denoted

section Continuing

variable {s : Bytes} {b : UInt8}

theorem continuing_of_high (h : ¬ b < 128) : continuing (b :: s) = continuing s + 1 := by
  rw [continuing, List.takeWhile_cons_of_pos (by simpa using h)]
  rfl

theorem continuing_of_low (h : b < 128) : continuing (b :: s) = 0 := by
  rw [continuing, List.takeWhile_cons_of_neg (by simpa using h)]
  rfl

/-- The byte that ends a number has its highest bit clear. -/
theorem lt_of_continuing (h : s[continuing s]? = some b) : b < 128 := by
  induction s with
  | nil => cases h
  | cons a s ih =>
    by_cases ha : a < 128
    case pos =>
      rw [continuing_of_low ha, List.getElem?_cons_zero] at h
      cases h
      exact ha
    case neg =>
      rw [continuing_of_high ha, List.getElem?_cons_succ] at h
      exact ih h

end Continuing

/-- What is read depends on how many bytes ask for another one: too many, all that there are, or as many
as stand before the last byte of a number. -/
theorem peekFrom_eq (value width left : Nat) (s : Bytes) :
    peekFrom value width left s =
      if left ≤ continuing s then .error (.malformed .lengthTooWide)
      else if s.length ≤ continuing s then .ok none
      else .ok (some ((value + denoted (s.take (continuing s + 1)) * 128 ^ width) % UInt32.size,
        width + (continuing s + 1))) := by
  induction left generalizing value width s with
  | zero => rw [peekFrom, if_pos (Nat.zero_le _)]
  | succ left ih =>
    cases s with
    | nil => rfl
    | cons b s =>
      rw [peekFrom, Nat.pow_eq]
      by_cases hb : b < 128
      case pos =>
        have hone : denoted ((b :: s).take (0 + 1)) = b.toNat % 128 := by
          rw [List.take_succ_cons, List.take_zero, denoted_cons, denoted_nil, Nat.mul_zero, Nat.add_zero]
        rw [if_pos hb, continuing_of_low hb, if_neg (Nat.not_succ_le_zero left), List.length_cons,
          if_neg (Nat.not_succ_le_zero s.length), hone]
      case neg =>
        -- the digit goes to its place, and the others are read above it
        have hvalue : value + b.toNat % 128 * 128 ^ width +
            denoted (s.take (continuing s + 1)) * 128 ^ (width + 1) =
              value + denoted ((b :: s).take (continuing s + 1 + 1)) * 128 ^ width := by
          rw [List.take_succ_cons, denoted_cons]
          ring
        have hwidth : width + 1 + (continuing s + 1) = width + (continuing s + 1 + 1) := by omega
        rw [if_neg hb, ih, continuing_of_high hb, hvalue, hwidth, List.length_cons]
        simp only [Nat.add_le_add_iff_right]

theorem peek_eq (s : Bytes) :
    peek s =
      if maxWidth ≤ continuing s then .error (.malformed .lengthTooWide)
      else if s.length ≤ continuing s then .ok none
      else .ok (some (denoted (s.take (continuing s + 1)) % UInt32.size, continuing s + 1)) := by
  rw [peek, peekFrom_eq, Nat.zero_add, pow_zero, Nat.mul_one, Nat.zero_add]

/-- Nothing is refused but bytes that ask for too many others. -/
theorem peek_fails_iff (s : Bytes) : (∃ e, peek s = .error e) ↔ maxWidth ≤ continuing s := by
  rw [peek_eq]
  split
  case isTrue hwide => exact ⟨fun _ => hwide, fun _ => ⟨_, rfl⟩⟩
  case isFalse hwide =>
    refine ⟨fun ⟨e, he⟩ => ?_, fun h => absurd h hwide⟩
    split at he <;> cases he

section Read

variable {s : Bytes} {n w : Nat}

theorem peek_eq_ok (h : peek s = .ok (some (n, w))) :
    continuing s < maxWidth ∧ w = continuing s + 1 ∧ w ≤ s.length ∧
      n = denoted (s.take w) % UInt32.size := by
  rw [peek_eq] at h
  split at h
  case isTrue => cases h
  case isFalse hwide =>
    split at h
    case isTrue => cases h
    case isFalse hshort =>
      cases h
      exact ⟨by omega, rfl, by omega, rfl⟩

/-- Four bytes denote 28 bits. A fifth one adds seven of which four fit. -/
theorem denoted_fits_iff (h : peek s = .ok (some (n, w))) :
    denoted (s.take w) < UInt32.size ↔ ∀ b, s[4]? = some b → w = maxWidth → b < 16 := by
  obtain ⟨hwide, rfl, hlength, -⟩ := peek_eq_ok h
  have hmax : maxWidth = 5 := rfl
  have hsize : UInt32.size = 4294967296 := rfl
  by_cases hw : continuing s = 4
  case pos =>
    obtain ⟨b, hb⟩ : ∃ b, s[4]? = some b := ⟨s[4], List.getElem?_eq_getElem (by omega)⟩
    have hlast : b.toNat < 128 := UInt8.lt_iff_toNat_lt.mp (lt_of_continuing (hw ▸ hb))
    have hlow := denoted_lt (s.take 4)
    rw [List.length_take_of_le (by omega)] at hlow
    have hvalue : denoted (s.take (continuing s + 1)) = denoted (s.take 4) + 128 ^ 4 * b.toNat := by
      rw [hw, List.take_add_one, hb, Option.toList_some, denoted_concat,
        List.length_take_of_le (by omega), Nat.mod_eq_of_lt hlast]
    rw [hvalue]
    constructor
    · intro h c hc _
      obtain rfl : b = c := Option.some.inj (hb.symm.trans hc)
      show b.toNat < 16
      omega
    · intro h
      have hfour : b.toNat < 16 := h b hb (congrArg (· + 1) hw)
      omega
  case neg =>
    have hlow := denoted_lt (s.take (continuing s + 1))
    rw [List.length_take_of_le hlength] at hlow
    have hpow : 128 ^ (continuing s + 1) ≤ 128 ^ 4 := Nat.pow_le_pow_right (by decide) (by omega)
    refine ⟨fun _ b _ hfive => ?_, fun _ => ?_⟩
    · omega
    · omega

/-- A beginning of a number is not taken for a number. -/
theorem peek_of_part {t : Bytes} (hn : n < 128 ^ maxWidth) (ht : t <+: write n) (hne : t ≠ write n) :
    peek t = .ok none := by
  obtain ⟨x, hx⟩ := ht
  by_contra h
  have hwhole := peek_write hn []
  rw [List.append_nil, ← hx, peek_append h] at hwhole
  have hw := width_of_peek hwhole
  rw [hx] at hw
  have hlength := congrArg List.length hx
  rw [List.length_append] at hlength
  have hnil : x = [] := List.eq_nil_of_length_eq_zero (by omega)
  exact hne (by rw [← hx, hnil, List.append_nil])

end Read

/-- What is written for a number of 32 bits is read back, whatever follows, and no part of it is taken for
a number. In general what is read is what the bytes denote, up to its lowest 32 bits: the number itself
exactly if it has no more of them, and only a fifth byte with more than four binary digits can give it more.
Nothing is refused but five bytes after which another one would have to follow, and a frame is cut off at the
length that is read. -/
theorem exact_iff_fits (v : UInt32) (s : Bytes) :
    let written := write v.toNat
    (0 < written.length ∧ written.length ≤ maxWidth ∧
      peek (written ++ s) = .ok (some (v.toNat, written.length)) ∧
      ∀ t, t <+: written → t ≠ written → peek t = .ok none) ∧
    (∀ n w, peek s = .ok (some (n, w)) → n = denoted (s.take w) % UInt32.size ∧
      (n = denoted (s.take w) ↔ denoted (s.take w) < UInt32.size) ∧
      (denoted (s.take w) < UInt32.size ↔ ∀ b, s[4]? = some b → w = maxWidth → b < 16)) ∧
    ((∃ e, peek s = .error e) ↔ maxWidth ≤ continuing s) ∧
    ∀ z t p rest, Frame.decode z t s = .packet p rest → ∃ w,
      w = continuing s + 1 ∧ rest = s.drop (w + denoted (s.take w) % UInt32.size) := by
  intro written
  refine ⟨?_, fun n w h => ?_, peek_fails_iff s, fun z t p rest h => ?_⟩
  · have hv : v.toNat < 128 ^ maxWidth := Nat.lt_trans v.toNat_lt (by decide)
    have hread := peek_write hv s
    rw [Nat.mod_eq_of_lt v.toNat_lt] at hread
    exact ⟨(width_of_peek hread).1, length_write_le hv, hread, fun t => peek_of_part hv⟩
  · obtain ⟨-, -, -, hn⟩ := peek_eq_ok h
    refine ⟨hn, ?_, denoted_fits_iff h⟩
    rw [hn]
    exact ⟨fun heq => heq ▸ Nat.mod_lt _ (by decide), Nat.mod_eq_of_lt⟩
  · obtain ⟨n, w, hpeek, -, -, -, rfl⟩ := Frame.decode_eq_packet.mp h
    obtain ⟨-, hw, -, rfl⟩ := peek_eq_ok hpeek
    exact ⟨w, hw, rfl⟩

/-- The greatest number of 32 bits takes up five bytes, and the last of them has four binary digits. -/
theorem exact_iff_fits_greatest :
    let s : Bytes := [0xff, 0xff, 0xff, 0xff, 0x0f]
    peek (s ++ [7]) = .ok (some (4294967295, 5)) ∧ peek (s.take 4) = .ok none ∧
      denoted (s.take 5) = 4294967295 := by
  intro s
  obtain ⟨⟨-, -, hpeek, hpart⟩, -⟩ := exact_iff_fits 4294967295 [7]
  have hs : write (4294967295 : UInt32).toNat = s := by cbv
  rw [hs] at hpeek hpart
  refine ⟨hpeek, hpart (s.take 4) (List.take_prefix 4 s) (by decide), ?_⟩
  obtain ⟨-, hexact, hfits⟩ := (exact_iff_fits 0 (s ++ [7])).2.1 _ _ hpeek
  refine (hexact.mpr (hfits.mpr fun b hb _ => ?_)).symm
  cases hb
  decide

/-- Five bytes that denote a number of 33 bits are read as zero, and the frame is taken to be empty. -/
theorem number_reduced :
    let s : Bytes := [0x80, 0x80, 0x80, 0x80, 0x10]
    denoted s = 4294967296 ∧ peek s = .ok (some (0, 5)) ∧
      ∀ z, Frame.decode z none (s ++ [7]) = .packet [] [7] := by
  intro s
  refine ⟨by decide, rfl, fun z => ?_⟩
  exact Frame.decode_eq_packet.mpr ⟨0, 5, rfl, Nat.zero_le _, by decide, rfl, rfl⟩

end Varint
end EditionGateway
