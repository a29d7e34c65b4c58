import EditionGateway.Proofs.Compression.Codes
import EditionGateway.Proofs.Compression.Tokens

/-!
Blocks that have been written are read back, in the fixed code and as they stand.
-/

namespace EditionGateway

open Inflate

namespace Deflate

variable {limit : Nat} {o : Bytes}

theorem runBits_cons (e : Nat × Nat) (r : BitRun) : runBits (e :: r) = lowBits e.1 e.2 ++ runBits r := rfl

theorem runBits_append (r r' : BitRun) : runBits (r ++ r') = runBits r ++ runBits r' := List.flatMap_append

theorem reaches_lengthCodes : Reaches maxCopy lengthCodes.toList := by decide

theorem reaches_distanceCodes : Reaches windowLength distanceCodes.toList := by decide

/-- The bits of a copy are those of its length and of its distance. -/
theorem tokenBits_copy {length distance : Nat} (hlength : 3 ≤ length ∧ length ≤ maxCopy)
    (hdistance : 0 < distance ∧ distance ≤ windowLength) :
    ∃ i j extra extra' rest rest',
      tokenBits (.copy length distance) =
        [symbolCode (257 + i), (extra, rest), code 5 j, (extra', rest')] ∧
      (i < 29 ∧ rest < Nat.pow 2 extra ∧ ∀ limit o r,
        Leads limit (extended lengthCodes i) o (lowBits extra rest ++ r) length o r) ∧
      j < 30 ∧ rest' < Nat.pow 2 extra' ∧ ∀ limit o r,
        Leads limit (extended distanceCodes j) o (lowBits extra' rest' ++ r) distance o r := by
  have hread := codeFor_spec (reaches_lengthCodes.mono hlength.2) (by rintro c ⟨⟩; exact hlength.1) rfl
  have hread' := codeFor_spec (reaches_distanceCodes.mono hdistance.2)
    (by rintro c ⟨⟩; exact hdistance.1) rfl
  exact ⟨_, _, _, _, _, _, rfl, hread, hread'⟩

/-- The tokens are read back as the bytes that they tell. -/
theorem leads_coded {x : Bytes} {i fuel : Nat} {ts : List Token} (h : Tells x i ts)
    (hroom : x.length ≤ limit) (hfuel : ts.length < fuel) (r : List Nat) :
    Leads limit (Inflate.coded fixedLiterals fixedDistances fuel) (x.take i)
      (runBits (ts.flatMap tokenBits ++ [symbolCode 256]) ++ r) () x r := by
  induction h generalizing fuel with
  | finish =>
    obtain ⟨fuel, rfl⟩ : ∃ n, fuel = n + 1 := ⟨fuel - 1, by omega⟩
    rw [List.take_length]
    exact (leads_symbol (finds_literals 256 (by decide)) r).bind (leads_pure ())
  | @literal i ts hi htells ih =>
    obtain ⟨fuel, rfl⟩ : ∃ n, fuel = n + 1 := ⟨fuel - 1, by omega⟩
    have hlt : x[i].toNat < 256 := x[i].toNat_lt
    have hbits : runBits ((Token.literal x[i] :: ts).flatMap tokenBits ++ [symbolCode 256]) ++ r =
        runBits [symbolCode x[i].toNat] ++
          (runBits (ts.flatMap tokenBits ++ [symbolCode 256]) ++ r) := by
      rw [List.flatMap_cons, List.append_assoc, runBits_append, List.append_assoc]
      rfl
    rw [hbits]
    refine (leads_symbol (finds_literals _ (by omega)) _).bind ?_
    rw [if_pos hlt, UInt8.ofNat_toNat]
    have hput : Leads limit (put x[i]) (x.take i)
        (runBits (ts.flatMap tokenBits ++ [symbolCode 256]) ++ r) () (x.take (i + 1))
        (runBits (ts.flatMap tokenBits ++ [symbolCode 256]) ++ r) := by
      rw [List.take_succ_eq_append_getElem hi]
      exact leads_put (by rw [List.length_take]; omega)
    exact hput.bind (ih (Nat.lt_of_succ_lt_succ hfuel))
  | @copy i length distance ts hlength hdistance hback hend hsame htells ih =>
    obtain ⟨fuel, rfl⟩ : ∃ n, fuel = n + 1 := ⟨fuel - 1, by omega⟩
    obtain ⟨l, d, extra, extra', rest, rest', htoken, ⟨hl, hrest, hread⟩, hd, hrest', hread'⟩ :=
      tokenBits_copy hlength hdistance
    have hbits : runBits ((Token.copy length distance :: ts).flatMap tokenBits ++ [symbolCode 256]) ++ r =
        runBits [symbolCode (257 + l)] ++ (lowBits extra rest ++ (runBits [code 5 d] ++
          (lowBits extra' rest' ++ (runBits (ts.flatMap tokenBits ++ [symbolCode 256]) ++ r)))) := by
      rw [List.flatMap_cons, htoken]
      simp only [runBits, List.flatMap_append, List.flatMap_cons, List.flatMap_nil, List.append_nil,
        List.append_assoc]
    rw [hbits]
    refine (leads_symbol (finds_literals _ (by omega)) _).bind ?_
    rw [if_neg (by omega), if_neg (by omega), Nat.add_sub_cancel_left]
    refine (hread _ _ _).bind ((leads_symbol (finds_distances _ (by omega)) _).bind ((hread' _ _ _).bind ?_))
    exact (leads_copy hdistance.1 hback hend hroom hsame).bind (ih (Nat.lt_of_succ_lt_succ hfuel))

theorem fits_append {r r' : BitRun} (h : Fits r) (h' : Fits r') : Fits (r ++ r') := by
  intro e he
  obtain he | he := List.mem_append.mp he
  · exact h e he
  · exact h' e he

theorem Tells.fits {x : Bytes} {i : Nat} {ts : List Token} (h : Tells x i ts) :
    Fits (ts.flatMap tokenBits) := by
  induction h with
  | finish => nofun
  | @literal i ts hi _ ih =>
    have hbyte : x[i].toNat < 256 := x[i].toNat_lt
    refine fits_append ?_ ih
    rintro e he
    rw [tokenBits, List.mem_singleton] at he
    rw [he]
    exact fits_symbolCode _ (by omega)
  | copy hlength hdistance _ _ _ _ ih =>
    obtain ⟨l, d, extra, extra', rest, rest', htoken, ⟨hl, hrest, -⟩, hd, hrest', -⟩ :=
      tokenBits_copy hlength hdistance
    refine fits_append ?_ ih
    rw [htoken]
    simp only [Fits, List.forall_mem_cons, List.not_mem_nil, false_imp_iff, implies_true, and_true]
    exact ⟨fits_symbolCode _ (by omega), hrest, fits_distanceCode _ (by omega), hrest'⟩

theorem symbolCode_pos (s : Nat) : 0 < (symbolCode s).1 := by
  rw [symbolCode]
  split
  · exact Nat.zero_lt_succ 7
  · split
    · exact Nat.zero_lt_succ 8
    · split
      · exact Nat.zero_lt_succ 6
      · exact Nat.zero_lt_succ 7

theorem length_tokens_le (ts : List Token) : ts.length ≤ (runBits (ts.flatMap tokenBits)).length := by
  induction ts with
  | nil => exact Nat.le_refl 0
  | cons t ts ih =>
    obtain ⟨s, r, ht⟩ : ∃ s r, tokenBits t = symbolCode s :: r := by
      cases t with
      | literal b => exact ⟨_, _, rfl⟩
      | copy length distance => exact ⟨_, _, rfl⟩
    have hpos := symbolCode_pos s
    rw [List.flatMap_cons, ht, runBits_append, runBits_cons, List.length_append, List.length_append,
      length_lowBits, List.length_cons]
    omega

/-- A block in the fixed code is read back; it may end inside a byte. -/
theorem leads_codedBlock {b : Bytes} {fuel : Nat} (hroom : b.length ≤ limit)
    (hfuel : 8 * (coded b).length < fuel) (rest : Bytes) :
    ∃ pad, pad.length < 8 ∧
      Leads limit (blocks fuel) [] (Bytes.bits (coded b ++ rest)) () b (pad ++ Bytes.bits rest) := by
  obtain ⟨ts, hts, htells⟩ := tells_tokens b.toArray (Array.replicate slotCount 0) 0 [] (Nat.zero_le _)
  have hfront : Fits [(1, 1), (2, 1)] := by decide
  have hend : Fits [symbolCode 256] := by decide
  have hfits : Fits ((1, 1) :: (2, 1) :: ts.flatMap tokenBits ++ [symbolCode 256]) :=
    fits_append (fits_append hfront htells.fits) hend
  obtain ⟨pad, hpad, hbits⟩ := @bits_pack 0 0 _ hfits Nat.one_pos (by decide) []
  have hcoded : Bytes.bits (coded b) = [1] ++ (lowBits 2 1 ++
      (runBits (ts.flatMap tokenBits ++ [symbolCode 256]) ++ pad)) := by
    rw [coded, hts]
    exact hbits
  -- a token takes up a bit at least, so there is fuel for all of them
  have hlength : ts.length < fuel := by
    have hall := congrArg List.length hcoded
    have htokens := length_tokens_le ts
    rw [runBits_append] at hall
    simp only [Bytes.length_bits, List.length_append] at hall
    omega
  refine ⟨pad, hpad, ?_⟩
  obtain ⟨fuel, rfl⟩ : ∃ n, fuel = n + 1 := ⟨fuel - 1, by omega⟩
  have hread := leads_coded htells hroom hlength (pad ++ Bytes.bits rest)
  rw [Bytes.bits_append, hcoded]
  simp only [List.append_assoc]
  refine leads_bit.bind ((leads_bits (by decide)).bind ?_)
  rw [if_neg (by decide), if_pos rfl]
  exact hread.bind (leads_pure ())

/-! ### Stored blocks -/

theorem leads_storedBody {pad : List Nat} (hpad : pad.length < 8) {b : Bytes} (hlong : b.length ≤ 0xffff)
    (hroom : o.length + b.length ≤ limit) (rest : Bytes) :
    Leads limit Inflate.stored o
      (pad ++ Bytes.bits (Bytes.le 2 b.length ++ (Bytes.le 2 (0xffff - b.length) ++ (b ++ rest)))) ()
      (o ++ b) (Bytes.bits rest) := by
  have hlength : b.length < Nat.pow 256 2 := Nat.lt_succ_of_le hlong
  have hcheck : 0xffff - b.length < Nat.pow 256 2 := Nat.lt_succ_of_le (Nat.sub_le _ _)
  refine (leads_align hpad _).bind ((leads_word hlength _).bind ((leads_word hcheck _).bind ?_))
  rw [if_neg (by omega)]
  exact leads_putInput b rest hroom

/-- One stored block, behind a byte that says whether it is the last one. -/
theorem leads_storedBlock {first : UInt8} {last fuel : Nat} {pad bs : List Nat} {o' b rest : Bytes}
    (hfirst : lowBits 8 first.toNat = last :: (lowBits 2 0 ++ pad)) (hlong : b.length ≤ 0xffff)
    (hroom : o.length + b.length ≤ limit)
    (hmore : Leads limit (if last = 1 then return else blocks fuel) (o ++ b) (Bytes.bits rest) () o' bs) :
    Leads limit (blocks (fuel + 1)) o
      (Bytes.bits (first :: Bytes.le 2 b.length ++ Bytes.le 2 (0xffff - b.length) ++ b ++ rest))
      () o' bs := by
  -- behind the mark and the kind of block five bits are left of the byte
  have hpad : pad.length < 8 := by
    have hlength := congrArg List.length hfirst
    simp only [length_lowBits, List.length_cons, List.length_append] at hlength
    omega
  have hbody := leads_storedBody hpad hlong hroom rest
  simp only [List.cons_append, List.append_assoc, Bytes.bits_cons, hfirst]
  refine leads_bit.bind ((leads_bits (by decide)).bind ?_)
  rw [if_pos rfl]
  exact hbody.bind hmore

/-- Stored blocks are read back, however many they are. -/
theorem leads_storedBlocks (b : Bytes) {fuel : Nat} (hroom : o.length + b.length ≤ limit)
    (hfuel : b.length < fuel) (rest : Bytes) :
    Leads limit (blocks fuel) o (Bytes.bits (stored b ++ rest)) () (o ++ b) (Bytes.bits rest) := by
  induction hlen : b.length using Nat.strongRecOn generalizing b fuel o with
  | ind n ih =>
    obtain ⟨fuel, rfl⟩ : ∃ n, fuel = n + 1 := ⟨fuel - 1, by omega⟩
    rw [stored]
    split
    case isTrue hmore =>
      have hcut : b.take (min b.length 0xffff) ++ b.drop (min b.length 0xffff) = b :=
        List.take_append_drop _ b
      have htake : (b.take (min b.length 0xffff)).length = min b.length 0xffff := by
        rw [List.length_take]
        omega
      have hdrop : (b.drop (min b.length 0xffff)).length = b.length - min b.length 0xffff :=
        List.length_drop
      generalize b.take (min b.length 0xffff) = chunk at hcut htake ⊢
      generalize b.drop (min b.length 0xffff) = more at hcut hdrop ⊢
      have hgo : Leads limit (blocks fuel) (o ++ chunk) (Bytes.bits (stored more ++ rest)) ()
          (o ++ chunk ++ more) (Bytes.bits rest) :=
        ih _ (by omega) more (by rw [List.length_append]; omega) (by omega) rfl
      rw [List.append_assoc, hcut] at hgo
      rw [← htake, List.append_assoc]
      exact leads_storedBlock rfl (by omega) (by omega) hgo
    case isFalse hlast =>
      have hall : min b.length 0xffff = b.length := by omega
      rw [hall]
      exact leads_storedBlock rfl (by omega) hroom (leads_pure ())

end Deflate
end EditionGateway
