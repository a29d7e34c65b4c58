import EditionGateway.Compression.Deflate

/-!
Byte strings as sequences of bits. Numbers that are packed into bytes follow one another bit by bit,
and at most seven bits are added to fill the last byte.
-/

namespace EditionGateway

/-- The lowest `n` bits of a number, lowest first. -/
def lowBits : Nat → Nat → List Nat
  | 0, _ => []
  | n + 1, v => v % 2 :: lowBits n (v / 2)

@[simp] theorem length_lowBits (n v : Nat) : (lowBits n v).length = n := by
  induction n generalizing v with
  | zero => rfl
  | succ n ih => rw [lowBits, List.length_cons, ih]

theorem lowBits_add (m n v : Nat) : lowBits (m + n) v = lowBits m v ++ lowBits n (v / Nat.pow 2 m) := by
  induction m generalizing v with
  | zero =>
    have hone : v / Nat.pow 2 0 = v := Nat.div_one v
    rw [Nat.zero_add, hone]
    rfl
  | succ m ih =>
    have hpow : v / Nat.pow 2 (m + 1) = v / 2 / Nat.pow 2 m := by
      have hcomm : Nat.pow 2 (m + 1) = 2 * Nat.pow 2 m := Nat.mul_comm _ _
      rw [hcomm, Nat.div_div_eq_div_mul]
    have hsucc : m + 1 + n = m + n + 1 := by omega
    rw [hsucc, lowBits, lowBits, ih, hpow]
    rfl

/-- Higher bits make no difference. -/
theorem lowBits_add_mul (n v w : Nat) : lowBits n (v + w * Nat.pow 2 n) = lowBits n v := by
  induction n generalizing v with
  | zero => rfl
  | succ n ih =>
    have hpow : w * Nat.pow 2 (n + 1) = 2 * (w * Nat.pow 2 n) := by
      have hcomm : Nat.pow 2 (n + 1) = 2 * Nat.pow 2 n := Nat.mul_comm _ _
      rw [hcomm, Nat.mul_left_comm]
    have hlow : (v + 2 * (w * Nat.pow 2 n)) % 2 = v % 2 := by omega
    have hhigh : (v + 2 * (w * Nat.pow 2 n)) / 2 = v / 2 + w * Nat.pow 2 n := by omega
    rw [lowBits, lowBits, hpow, hlow, hhigh, ih]

/-- A number that is put on top of another one has its bits behind those of the other. -/
theorem lowBits_stack {m v : Nat} (n w : Nat) (h : v < Nat.pow 2 m) :
    lowBits (m + n) (v + w * Nat.pow 2 m) = lowBits m v ++ lowBits n w := by
  have hdiv : (v + w * Nat.pow 2 m) / Nat.pow 2 m = w := by
    rw [Nat.add_mul_div_right _ _ (Nat.zero_lt_of_lt h), Nat.div_eq_of_lt h, Nat.zero_add]
  rw [lowBits_add, lowBits_add_mul, hdiv]

theorem stack_lt {m n v w : Nat} (hv : v < Nat.pow 2 m) (hw : w < Nat.pow 2 n) :
    v + w * Nat.pow 2 m < Nat.pow 2 (m + n) := by
  have hpow : Nat.pow 2 (m + n) = Nat.pow 2 n * Nat.pow 2 m := by
    rw [Nat.mul_comm]
    exact Nat.pow_add 2 m n
  calc v + w * Nat.pow 2 m < Nat.pow 2 m + w * Nat.pow 2 m := Nat.add_lt_add_right hv _
    _ = (w + 1) * Nat.pow 2 m := by rw [Nat.add_mul, Nat.one_mul, Nat.add_comm]
    _ ≤ Nat.pow 2 (m + n) := hpow ▸ Nat.mul_le_mul_right _ hw

theorem lowBits_injective {n v w : Nat} (hv : v < Nat.pow 2 n) (hw : w < Nat.pow 2 n)
    (h : lowBits n v = lowBits n w) : v = w := by
  induction n generalizing v w with
  | zero =>
    have hv : v < 1 := hv
    have hw : w < 1 := hw
    omega
  | succ n ih =>
    have hpow : Nat.pow 2 (n + 1) = 2 * Nat.pow 2 n := Nat.mul_comm _ _
    rw [hpow] at hv hw
    obtain ⟨hlow, hhigh⟩ := List.cons.inj h
    have hhalf := ih (by omega) (by omega) hhigh
    omega

namespace Bytes

/-- The bits of a byte string; those of a byte come lowest first. -/
def bits (b : Bytes) : List Nat := b.flatMap fun x => lowBits 8 x.toNat

@[simp] theorem bits_nil : bits [] = [] := rfl

@[simp] theorem bits_cons (x : UInt8) (b : Bytes) : bits (x :: b) = lowBits 8 x.toNat ++ bits b := rfl

@[simp] theorem bits_append (b c : Bytes) : bits (b ++ c) = bits b ++ bits c := List.flatMap_append

@[simp] theorem length_bits (b : Bytes) : (bits b).length = 8 * b.length := by
  induction b with
  | nil => rfl
  | cons x b ih =>
    rw [bits_cons, List.length_append, length_lowBits, ih, List.length_cons]
    omega

theorem bits_injective {b c : Bytes} (h : bits b = bits c) : b = c := by
  induction b generalizing c with
  | nil =>
    cases c with
    | nil => rfl
    | cons y c => cases h
  | cons x b ih =>
    cases c with
    | nil => cases h
    | cons y c =>
      rw [bits_cons, bits_cons] at h
      obtain ⟨hx, hb⟩ := List.append_inj h (by rw [length_lowBits, length_lowBits])
      have hbyte := UInt8.toNat_inj.mp (lowBits_injective x.toNat_lt y.toNat_lt hx)
      rw [hbyte, ih hb]

theorem bits_le (width n : Nat) : bits (le width n) = lowBits (8 * width) n := by
  induction width generalizing n with
  | zero => rfl
  | succ width ih =>
    have hbyte : (UInt8.ofNat n).toNat = n % 256 := by simp
    have hmod : lowBits 8 (n % 256) = lowBits 8 n := by
      have hsplit : n % 256 + n / 256 * Nat.pow 2 8 = n := Nat.mod_add_div' n 256
      rw [← lowBits_add_mul 8 (n % 256) (n / 256), hsplit]
    have hwidth : 8 * (width + 1) = 8 + 8 * width := by omega
    rw [le, bits_cons, ih, hbyte, hmod, hwidth, lowBits_add]

end Bytes

namespace Deflate

/-- The bits of a run, where each number fits its width. -/
def runBits (r : BitRun) : List Nat := r.flatMap fun e => lowBits e.1 e.2

def Fits (r : BitRun) : Prop := ∀ e ∈ r, e.2 < Nat.pow 2 e.1

instance (r : BitRun) : Decidable (Fits r) := inferInstanceAs (Decidable (∀ e ∈ r, e.2 < Nat.pow 2 e.1))

/-- What waits, and then the run, are packed bit by bit. -/
theorem bits_pack {hold held : Nat} {r : BitRun} (hr : Fits r) (hhold : hold < Nat.pow 2 held)
    (hheld : held < 8) (done : Bytes) :
    ∃ pad, pad.length < 8 ∧
      Bytes.bits (pack hold held done r) =
        Bytes.bits done.reverse ++ lowBits held hold ++ runBits r ++ pad := by
  induction r generalizing hold held done with
  | nil =>
    rw [pack]
    by_cases hzero : held = 0
    case pos =>
      subst hzero
      exact ⟨[], by decide, by simp [runBits, lowBits]⟩
    case neg =>
      -- the last byte is filled up with zeros
      have hlast : Bytes.bits [UInt8.ofNat hold] =
          lowBits held hold ++ lowBits (8 - held) (hold / Nat.pow 2 held) := by
        have hwidth : 8 * 1 = held + (8 - held) := by omega
        rw [← lowBits_add, ← hwidth]
        exact Bytes.bits_le 1 hold
      refine ⟨lowBits (8 - held) (hold / Nat.pow 2 held), by rw [length_lowBits]; omega, ?_⟩
      rw [if_neg hzero, List.reverse_cons, Bytes.bits_append, hlast, List.append_assoc, List.append_assoc]
      rfl
  | cons e r ih =>
    obtain ⟨width, v⟩ := e
    have hv : v < Nat.pow 2 width := hr _ List.mem_cons_self
    have hstack := lowBits_stack width v hhold
    have hlt := stack_lt hhold hv
    -- the whole bytes among the bits leave, the others wait
    obtain ⟨ready, left, hwidth, hready, hleft⟩ : ∃ ready left, held + width = 8 * ready + left ∧
        (held + width) / 8 = ready ∧ (held + width) % 8 = left :=
      ⟨_, _, by omega, rfl, rfl⟩
    have hpow : Nat.pow 256 ready = Nat.pow 2 (8 * ready) := (Nat.pow_mul 2 8 ready).symm
    rw [pack, hready, hleft, hpow]
    rw [hwidth] at hstack hlt
    generalize hold + v * Nat.pow 2 held = hold' at hstack hlt ⊢
    have hroom : hold' / Nat.pow 2 (8 * ready) < Nat.pow 2 left := by
      have hsplit : Nat.pow 2 (8 * ready + left) = Nat.pow 2 (8 * ready) * Nat.pow 2 left :=
        Nat.pow_add 2 (8 * ready) left
      exact Nat.div_lt_of_lt_mul (hsplit ▸ hlt)
    have hrest : Fits r := fun e he => hr e (List.mem_cons_of_mem _ he)
    obtain ⟨pad, hpad, hbits⟩ := ih hrest hroom (by omega) ((Bytes.le ready hold').reverse ++ done)
    refine ⟨pad, hpad, ?_⟩
    rw [hbits, List.reverse_append, List.reverse_reverse, Bytes.bits_append, Bytes.bits_le]
    rw [lowBits_add] at hstack
    rw [List.append_assoc (Bytes.bits _), hstack]
    simp only [runBits, List.flatMap_cons, List.append_assoc]

end Deflate
end EditionGateway
