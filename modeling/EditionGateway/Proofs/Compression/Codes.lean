import EditionGateway.Proofs.Compression.Steps

/-!
The fixed codes. The code written for a symbol is the one that leads to it in the fixed tree, and a
length or distance is read back from its code and extra bits.
-/

namespace EditionGateway

open Inflate

namespace Deflate

variable {limit : Nat} {o : Bytes}

/-- The bits lead to the symbol. -/
def Finds (t : CodeTree) (bs : List Nat) (s : Nat) : Prop :=
  descend t.symbols 0 0 0 t.counts bs = some (s, [])

instance (t : CodeTree) (bs : List Nat) (s : Nat) : Decidable (Finds t bs s) :=
  inferInstanceAs (Decidable (_ = _))

theorem finds_literals : ∀ s < 288, Finds fixedLiterals (runBits [symbolCode s]) s := by decide +kernel

theorem finds_distances : ∀ s < 32, Finds fixedDistances (runBits [code 5 s]) s := by decide +kernel

theorem fits_symbolCode : ∀ s < 288, (symbolCode s).2 < Nat.pow 2 (symbolCode s).1 := by decide +kernel

theorem fits_distanceCode : ∀ s < 32, (code 5 s).2 < Nat.pow 2 5 := by decide +kernel

theorem leads_symbol {t : CodeTree} {bs : List Nat} {s : Nat} (h : Finds t bs s) (r : List Nat) :
    Leads limit (symbol t) o (bs ++ r) s o r :=
  leads_walk (descend_append h r)

/-! ### Lengths and distances -/

/-- The codes ascend; the extra bits of each reach up to the next one, and those of the last reach
beyond `v`. -/
def Reaches (v : Nat) : List (Nat × Nat) → Prop
  | [] => False
  | [c] => v < c.2 + Nat.pow 2 c.1
  | c :: d :: r => c.2 < d.2 ∧ d.2 ≤ c.2 + Nat.pow 2 c.1 ∧ Reaches v (d :: r)

instance Reaches.decidable (v : Nat) : (cs : List (Nat × Nat)) → Decidable (Reaches v cs)
  | [] => isFalse id
  | [c] => inferInstanceAs (Decidable (v < c.2 + Nat.pow 2 c.1))
  | c :: d :: r =>
    have := Reaches.decidable v (d :: r)
    inferInstanceAs (Decidable (c.2 < d.2 ∧ d.2 ≤ c.2 + Nat.pow 2 c.1 ∧ Reaches v (d :: r)))

theorem Reaches.mono {v w : Nat} (hle : v ≤ w) {cs : List (Nat × Nat)} (h : Reaches w cs) :
    Reaches v cs := by
  induction cs with
  | nil => exact h
  | cons c r ih =>
    cases r with
    | nil => exact Nat.lt_of_le_of_lt hle h
    | cons d r => exact ⟨h.1, h.2.1, ih h.2.2⟩

theorem Reaches.none_below {u v : Nat} {c : Nat × Nat} {r : List (Nat × Nat)} (h : Reaches u (c :: r))
    (hv : v < c.2) : (c :: r).countP (fun e => e.2 ≤ v) = 0 := by
  induction r generalizing c with
  | nil => simp [hv]
  | cons d r ih =>
    rw [List.countP_cons_of_neg (by simp [hv])]
    exact ih h.2.2 (Nat.lt_trans hv h.1)

/-- The last code that does not begin above `v` reaches it. -/
theorem Reaches.last {v : Nat} {c : Nat × Nat} {r : List (Nat × Nat)} (h : Reaches v (c :: r))
    (hc : c.2 ≤ v) :
    ∃ e, (c :: r)[(c :: r).countP (fun e => e.2 ≤ v) - 1]? = some e ∧ e.2 ≤ v ∧
      v < e.2 + Nat.pow 2 e.1 := by
  have hcount : (c :: r).countP (fun e => e.2 ≤ v) = r.countP (fun e => e.2 ≤ v) + 1 :=
    List.countP_cons_of_pos (by simp [hc])
  rw [hcount, Nat.add_sub_cancel]
  induction r generalizing c with
  | nil => exact ⟨c, rfl, hc, h⟩
  | cons d r ih =>
    by_cases hd : d.2 ≤ v
    case pos =>
      have hnext : (d :: r).countP (fun e => e.2 ≤ v) = r.countP (fun e => e.2 ≤ v) + 1 :=
        List.countP_cons_of_pos (by simp [hd])
      obtain ⟨e, he, hreach⟩ := ih h.2.2 hd hnext
      exact ⟨e, by rw [hnext]; exact he, hreach⟩
    case neg =>
      -- the next code begins above `v`, and so do all later ones
      have hnone := h.2.2.none_below (Nat.not_le.mp hd)
      refine ⟨c, by rw [hnone]; rfl, hc, ?_⟩
      have hd := h.2.1
      omega

/-- A value is read back from its code and the extra bits that are left of it. -/
theorem codeFor_spec {codes : Array (Nat × Nat)} {v i extra rest : Nat} (h : Reaches v codes.toList)
    (hfirst : ∀ c ∈ codes.toList.head?, c.2 ≤ v) (hcode : codeFor codes v = (i, extra, rest)) :
    i < codes.size ∧ rest < Nat.pow 2 extra ∧
      ∀ limit o r, Leads limit (extended codes i) o (lowBits extra rest ++ r) v o r := by
  cases hcodes : codes.toList with
  | nil =>
    rw [hcodes] at h
    exact h.elim
  | cons c cs =>
    rw [hcodes] at h hfirst
    obtain ⟨e, he, hle, hlt⟩ := h.last (hfirst c rfl)
    rw [← hcodes, Array.getElem?_toList] at he
    rw [codeFor, he] at hcode
    cases hcode
    have hfits : v - e.2 < Nat.pow 2 e.1 := by omega
    refine ⟨(Array.getElem?_eq_some_iff.mp he).1, hfits, ?_⟩
    intro limit o r
    have hvalue : e.2 + (v - e.2) = v := by omega
    have hread : Leads limit (do return e.2 + (← bits e.1)) o (lowBits e.1 (v - e.2) ++ r)
        (e.2 + (v - e.2)) o r := (leads_bits hfits).bind (leads_pure _)
    rw [extended, he]
    rwa [hvalue] at hread

end Deflate
end EditionGateway
