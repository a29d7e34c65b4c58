import EditionGateway.Compression.Format
import EditionGateway.Proofs.Compression.Blocks

/-!
Inflating undoes deflating, in both forms.
-/

namespace EditionGateway

open Inflate

variable {limit : Nat}

namespace Deflate

theorem length_le_stored (b : Bytes) : b.length ≤ (stored b).length := by
  induction hlen : b.length using Nat.strongRecOn generalizing b with
  | ind n ih =>
    rw [stored]
    split
    case isTrue hmore =>
      have hrest := ih _ (by rw [List.length_drop]; omega) (b.drop (min b.length 0xffff)) rfl
      rw [List.length_drop] at hrest
      simp only [List.length_append, List.length_take, List.length_cons]
      omega
    case isFalse =>
      simp only [List.length_append]
      omega

theorem length_deflate_le (b : Bytes) : (deflate b).length ≤ (stored b).length := by
  rw [deflate]
  split
  · omega
  · exact Nat.le_refl _

end Deflate

/-- The blocks of a deflated byte string are read back; the last one may end inside a byte. -/
theorem leads_deflate {b : Bytes} {fuel : Nat} (hroom : b.length ≤ limit)
    (hfuel : 8 * (deflate b).length < fuel) (rest : Bytes) :
    ∃ pad, pad.length < 8 ∧
      Leads limit (blocks fuel) [] (Bytes.bits (deflate b ++ rest)) () b (pad ++ Bytes.bits rest) := by
  rw [deflate] at hfuel ⊢
  split
  case isTrue h =>
    rw [if_pos h] at hfuel
    exact Deflate.leads_codedBlock hroom hfuel rest
  case isFalse h =>
    rw [if_neg h] at hfuel
    have hlength := Deflate.length_le_stored b
    have hblocks := @Deflate.leads_storedBlocks limit [] b fuel (by rwa [List.length_nil, Nat.zero_add])
      (by omega) rest
    exact ⟨[], by decide, hblocks⟩

theorem Inflate.run_eq {r : Nat → Inflate Unit} {input b : Bytes} {bs : List Nat}
    (h : Leads limit (r (8 * input.length + 1)) [] (Bytes.bits input) () b bs) :
    run r limit input = .ok b := by
  have hstart : Inflater.Stands limit [] (Bytes.bits input) { limit, input } :=
    ⟨rfl, rfl, Nat.zero_le _, Nat.zero_lt_succ 7, rfl⟩
  obtain ⟨s, hrun, hs⟩ := h.bind (f := fun _ => handOver) leads_handOver _ hstart
  change ((r (8 * input.length + 1) >>= fun _ => handOver) { limit, input } >>= fun x =>
    (.ok x.2.output.toList : Except InflateFault Bytes)) = .ok b
  rw [hrun, ← hs.output]
  rfl

theorem deflate_nil : deflate [] = [3, 0] := by
  have hcoded : Deflate.coded [] = [3, 0] := by
    rw [Deflate.coded, Deflate.tokens, dif_neg (by decide)]
    rfl
  have hstored : Deflate.stored [] = [1, 0, 0, 255, 255] := by
    rw [Deflate.stored]
    rfl
  rw [deflate, hcoded, hstored]
  rfl

namespace Compression

theorem bare_lawful : bare.Lawful := by
  intro limit b hlimit
  obtain ⟨pad, -, hread⟩ := leads_deflate hlimit (Nat.lt_succ_self (8 * (deflate b).length)) []
  rw [List.append_nil] at hread
  exact run_eq hread

theorem checksum_lt (b : Bytes) : checksum b < Nat.pow 256 4 := by
  have hpow : Nat.pow 256 4 = 65536 * 65536 := rfl
  rw [checksum, hpow]
  generalize hfold : List.foldl _ _ b = sums
  have hsums : sums.1 < 65521 ∧ sums.2 < 65521 := by
    rw [← hfold]
    refine List.foldlRecOn (motive := fun s : Nat × Nat => s.1 < 65521 ∧ s.2 < 65521) b _ (by decide) ?_
    exact fun _ _ _ _ => ⟨Nat.mod_lt _ (by decide), Nat.mod_lt _ (by decide)⟩
  dsimp only
  omega

/-- The checksum behind the blocks is that of the output. -/
theorem leads_unwrap {b : Bytes} {fuel : Nat} (hroom : b.length ≤ limit)
    (hfuel : 8 * (deflate b).length < fuel) :
    Leads limit (unwrap fuel) [] (Bytes.bits (wrapped.compress b)) () b [] := by
  have hvalue : Bytes.beValue (Bytes.be 4 (checksum b)) = checksum b := by
    rw [Bytes.beValue_be, Nat.mod_eq_of_lt (checksum_lt b)]
  obtain ⟨x, y, z, w, hbytes⟩ : ∃ x y z w, Bytes.be 4 (checksum b) = [x, y, z, w] :=
    ⟨_, _, _, _, rfl⟩
  rw [hbytes] at hvalue
  obtain ⟨pad, hpad, hblocks⟩ := leads_deflate hroom hfuel [x, y, z, w]
  have hcheck : Leads limit
      (do
        if Bytes.beValue [x, y, z, w] ≠ checksum (← get).output.toList then throw .corrupt : Inflate Unit)
      b [] () b [] := by
    intro s hs
    refine ⟨s, ?_, hs⟩
    rw [bind_of_ok (get_eq s), hvalue, hs.output, if_neg (by simp)]
    rfl
  change Leads limit (unwrap fuel) []
    (Bytes.bits (0x78 :: 0x9c :: (deflate b ++ Bytes.be 4 (checksum b)))) () b []
  rw [hbytes]
  refine (leads_nextByte 0x78 _).bind ((leads_nextByte 0x9c _).bind ?_)
  rw [if_neg (by decide)]
  refine hblocks.bind ((leads_align hpad _).bind ?_)
  exact (leads_nextByte x _).bind ((leads_nextByte y _).bind ((leads_nextByte z _).bind
    ((leads_nextByte w _).bind hcheck)))

theorem wrapped_lawful : wrapped.Lawful := by
  intro limit b hlimit
  refine run_eq (leads_unwrap hlimit ?_)
  simp only [wrapped, List.length_cons, List.length_append]
  omega

end Compression
end EditionGateway
