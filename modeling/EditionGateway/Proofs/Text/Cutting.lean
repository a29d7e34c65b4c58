import EditionGateway.Bytes

/-!
What is read of the first bytes of a text: what the text begins with if no character is cut through, and
nothing otherwise (`toText?_take`).
-/

namespace EditionGateway
namespace Bytes

theorem ofText_append (s t : String) : ofText (s ++ t) = ofText s ++ ofText t := by
  simp [ofText]

theorem toText?_eq_some_iff {b : Bytes} {s : String} : toText? b = some s ↔ ofText s = b := by
  constructor
  · intro h
    simp only [toText?, String.fromUTF8?] at h
    split at h
    · obtain rfl := Option.some.inj h
      rfl
    · cases h
  · rintro rfl
    exact toText?_ofText s

/-- No text is the beginning of another one in its bytes only. -/
theorem exists_rest {s t : String} (h : ofText s <+: ofText t) : ∃ r, t = s ++ r := by
  obtain ⟨b, hb⟩ := h
  have hbytes : s.toList.utf8Encode ++ ⟨b.toArray⟩ = t.toList.utf8Encode := by
    rw [String.utf8Encode_toList, String.utf8Encode_toList]
    refine ByteArray.ext (Array.toList_inj.mp ?_)
    rw [ByteArray.data_append, Array.toList_append]
    exact hb
  obtain ⟨r, hr⟩ := List.isPrefix_of_utf8Encode_append_eq_utf8Encode _ hbytes
  refine ⟨String.ofList r, String.toList_inj.mp ?_⟩
  rw [String.toList_append, String.toList_ofList, hr]

/-- A text of which `n` bytes are kept ends where one of its characters does: `front` is kept then. -/
structure IsFront (n : Nat) (text front : String) : Prop where
  begins : ∃ rest, text = front ++ rest
  length : (ofText front).length = min n (ofText text).length

theorem toText?_take {n : Nat} {text front : String} :
    toText? ((ofText text).take n) = some front ↔ IsFront n text front := by
  rw [toText?_eq_some_iff]
  constructor
  · intro h
    refine ⟨exists_rest (h ▸ List.take_prefix n _), ?_⟩
    rw [h, List.length_take]
  · rintro ⟨⟨rest, rfl⟩, hlength⟩
    rw [ofText_append, List.length_append] at hlength
    rw [ofText_append, List.take_append, List.take_of_length_le (by omega)]
    -- what is kept is at an end with `front`, or there is nothing behind it
    have hnone : (ofText rest).take (n - (ofText front).length) = [] := by
      refine List.eq_nil_of_length_eq_zero ?_
      rw [List.length_take]
      omega
    rw [hnone, List.append_nil]

theorem length_ofText_replicate (n : Nat) (c : Char) :
    (ofText (String.ofList (List.replicate n c))).length = n * c.utf8Size := by
  induction n with
  | zero => rw [Nat.zero_mul]; rfl
  | succ n ih =>
    have hfirst : (ofText (String.ofList [c])).length = c.utf8Size := by
      simp [ofText, List.utf8Encode_singleton]
    rw [List.replicate_succ, ← List.singleton_append, String.ofList_append, ofText_append,
      List.length_append, hfirst, ih, Nat.succ_mul, Nat.add_comm]

end Bytes
end EditionGateway
