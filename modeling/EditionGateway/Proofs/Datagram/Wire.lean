import EditionGateway.Datagram.Message

/-!
What is read of a fragment that has been written.
-/

namespace EditionGateway
namespace Datagram

namespace Scan

variable {α β : Type}

theorem bind_of_ok {s : Scan α} {f : α → Scan β} {c d : Cursor} {a : α} (h : s c = .ok (a, d)) :
    (s >>= f) c = f a d := by
  change (s c >>= fun x => f x.1 x.2) = f a d
  rw [h]
  rfl

theorem take_append (b r : Bytes) (k : Nat) :
    take b.length ⟨b ++ r, k⟩ = .ok (b, ⟨r, k + b.length⟩) := by
  simp [take]

/-- A number that fits its width is read back as it was written. -/
theorem number_be (n v : Nat) (r : Bytes) (k : Nat) (hv : v < Nat.pow 256 n) :
    number n ⟨Bytes.be n v ++ r, k⟩ = .ok (v, ⟨r, k + n⟩) := by
  have htake : take n ⟨Bytes.be n v ++ r, k⟩ = .ok (Bytes.be n v, ⟨r, k + n⟩) := by
    have h := take_append (Bytes.be n v) r k
    rwa [Bytes.length_be] at h
  have hvalue : Bytes.beValue (Bytes.be n v) = v := by
    rw [Bytes.beValue_be, Nat.mod_eq_of_lt hv]
  rw [number, bind_of_ok htake, hvalue]
  rfl

theorem number_byte (m : UInt8) (r : Bytes) (k : Nat) :
    number 1 ⟨m :: r, k⟩ = .ok (m.toNat, ⟨r, k + 1⟩) := by
  have hm : Bytes.be 1 m.toNat = [m] := congrArg (fun b => [b]) UInt8.ofNat_toNat
  have h := number_be 1 m.toNat r k m.toNat_lt
  rwa [hm] at h

end Scan

/-- A fragment without its mark is read back as it was written. -/
theorem Fragment.eval_encode (f : Fragment) : Scan.fragment.eval f.encode.tail = .ok f := by
  have hseq : f.seq.toNat < Nat.pow 256 4 := f.seq.toNat_lt
  have hsplit : f.split.toNat < Nat.pow 256 2 := f.split.toNat_lt
  have hindex : f.index.toNat < Nat.pow 256 2 := f.index.toNat_lt
  have hcount : f.count.toNat < Nat.pow 256 2 := f.count.toNat_lt
  have htail : f.encode.tail = Bytes.be 4 f.seq.toNat ++ (Bytes.be 2 f.split.toNat ++
      (Bytes.be 2 f.index.toNat ++ (Bytes.be 2 f.count.toNat ++ f.payload))) := by
    simp only [Fragment.encode, List.cons_append, List.tail_cons, List.append_assoc]
  have hrun : ∃ k, Scan.fragment ⟨f.encode.tail, 0⟩ = .ok (f, ⟨[], k⟩) := by
    rw [htail, Scan.fragment]
    rw [Scan.bind_of_ok (Scan.number_be 4 _ _ 0 hseq), Scan.bind_of_ok (Scan.number_be 2 _ _ _ hsplit),
      Scan.bind_of_ok (Scan.number_be 2 _ _ _ hindex), Scan.bind_of_ok (Scan.number_be 2 _ _ _ hcount)]
    rw [UInt32.ofNat_toNat, UInt16.ofNat_toNat, UInt16.ofNat_toNat, UInt16.ofNat_toNat]
    exact ⟨_, rfl⟩
  obtain ⟨k, hk⟩ := hrun
  change (Scan.fragment ⟨f.encode.tail, 0⟩).map (·.1) = .ok f
  rw [hk]
  rfl

end Datagram
end EditionGateway
