import EditionGateway.Proofs.Shape.Reading
import EditionGateway.Shape.Text

/-!
Exact layouts: each value is read back from its bytes, whatever follows, and what follows makes no
difference to a reader. Layouts are exact if their parts are.
-/

namespace EditionGateway

open Binary (Reader)
open Binary.Reader

namespace Uuid

theorem length_toBytes (u : Uuid) : u.toBytes.length = 16 := by
  rw [toBytes, List.length_append, Bytes.length_be, Bytes.length_be]

theorem ofBytes_toBytes (u : Uuid) : ofBytes u.toBytes = u := by
  have half (n : UInt64) : UInt64.ofNat (Bytes.beValue (Bytes.be 8 n.toNat)) = n := by
    rw [Bytes.beValue_be, Nat.mod_eq_of_lt n.toNat_lt, UInt64.ofNat_toNat]
  rw [ofBytes, toBytes, List.take_left' (Bytes.length_be 8 _), List.drop_left' (Bytes.length_be 8 _),
    half, half]

end Uuid

/-- A layout that says exactly which bytes are a value. Numbers in front of texts and lists have room
for all that is shorter than `2 ^ 64` bytes. -/
structure Shape.Exact {α : Type} (s : Shape α) : Prop where
  steady : s.read.Steady
  ne_nil : ∀ a, s.write a ≠ []
  reads : ∀ a, (s.write a).length < UInt64.size → s.read.Reads (s.write a) a

namespace Shape

variable {α β : Type}

theorem Exact.imap {s : Shape α} (hs : s.Exact) {build : α → β} {view : β → α}
    (h : ∀ b, build (view b) = b) : (s.imap build view).Exact where
  steady := hs.steady.bind fun a => steady_pure _
  ne_nil b := hs.ne_nil (view b)
  reads b hb := by
    have hread := (hs.reads (view b) hb).map build
    rwa [h] at hread

/-! ### Flags, numbers and floats -/

@[grind ←] theorem exact_flag : flag.Exact where
  steady := steady_byte.bind fun _ =>
    .ite (steady_pure _) (.ite (steady_pure _) (steady_fail _))
  ne_nil _ := nofun
  reads
    | true, _ => fun _ => rfl
    | false, _ => fun _ => rfl

@[grind ←] theorem exact_u8 : u8.Exact where
  steady := steady_byte
  ne_nil _ := nofun
  reads b _ := reads_byte b

@[grind ←] theorem exact_u16 : u16.Exact where
  steady := (Binary.steady_readBelow _).bind fun n => steady_pure _
  ne_nil n := Binary.writeNat_ne_nil _
  reads n _ := by
    have hread := (Binary.reads_below n.toNat_lt (by decide)).map UInt16.ofNat
    rwa [UInt16.ofNat_toNat] at hread

@[grind ←] theorem exact_u32 : u32.Exact where
  steady := (Binary.steady_readBelow _).bind fun n => steady_pure _
  ne_nil n := Binary.writeNat_ne_nil _
  reads n _ := by
    have hread := (Binary.reads_below n.toNat_lt (by decide)).map UInt32.ofNat
    rwa [UInt32.ofNat_toNat] at hread

@[grind ←] theorem exact_u64 : u64.Exact where
  steady := (Binary.steady_readBelow _).bind fun n => steady_pure _
  ne_nil n := Binary.writeNat_ne_nil _
  reads n _ := by
    have hread := (Binary.reads_below n.toNat_lt (by decide)).map UInt64.ofNat
    rwa [UInt64.ofNat_toNat] at hread

@[grind ←] theorem exact_i32 : i32.Exact where
  steady := (Binary.steady_readInt _).bind fun i => steady_pure _
  ne_nil i := Binary.writeNat_ne_nil _
  reads i _ := by
    have hread := (Binary.reads_int UInt32.size (by decide) i.le_toInt i.toInt_lt).map Int32.ofInt
    rwa [Int32.ofInt_toInt] at hread

@[grind ←] theorem exact_i64 : i64.Exact where
  steady := (Binary.steady_readInt _).bind fun i => steady_pure _
  ne_nil i := Binary.writeNat_ne_nil _
  reads i _ := by
    have hread := (Binary.reads_int UInt64.size (by decide) i.le_toInt i.toInt_lt).map Int64.ofInt
    rwa [Int64.ofInt_toInt] at hread

@[grind ←] theorem exact_f32 : f32.Exact where
  steady := (steady_take 4).bind fun b => steady_pure _
  ne_nil _ := nofun
  reads n _ := by
    have hread := (Binary.reads_le 4 n.toNat_lt).map UInt32.ofNat
    rwa [UInt32.ofNat_toNat] at hread

@[grind ←] theorem exact_f64 : f64.Exact where
  steady := (steady_take 8).bind fun b => steady_pure _
  ne_nil _ := nofun
  reads n _ := by
    have hread := (Binary.reads_le 8 n.toNat_lt).map UInt64.ofNat
    rwa [UInt64.ofNat_toNat] at hread

/-! ### Texts, identifiers, options and lists -/

@[grind ←] theorem exact_text : text.Exact where
  steady := (Binary.steady_readBelow _).bind fun n => (steady_take n).bind fun b =>
    steady_ofOption _ _
  ne_nil s := List.append_ne_nil_of_left_ne_nil (Binary.writeNat_ne_nil _) _
  reads s hs := by
    have hlen : (Bytes.ofText s).length < UInt64.size := by
      have happ : (text.write s).length = (Binary.writeNat (Bytes.ofText s).length).length +
          (Bytes.ofText s).length := List.length_append
      omega
    have hvalue : (ofOption .badText (Bytes.toText? (Bytes.ofText s))).Reads [] s := by
      rw [Bytes.toText?_ofText]
      exact reads_pure s
    have hread := (Binary.reads_below hlen (Nat.le_refl _)).bind (f := fun n => do
      let b ← Reader.take n
      Reader.ofOption .badText (Bytes.toText? b)) ((reads_take (Bytes.ofText s)).bind hvalue)
    rwa [List.append_nil] at hread

@[grind ←] theorem exact_uuid : uuid.Exact where
  steady := (Binary.steady_readBelow _).bind fun n => (steady_take n).bind fun _ =>
    .ite (steady_pure _) (steady_fail _)
  ne_nil _ := nofun
  reads u _ := by
    have hcheck : (if u.toBytes.length = 16 then pure (Uuid.ofBytes u.toBytes)
        else Reader.fail .invalid : Reader Uuid).Reads [] u := by
      rw [if_pos u.length_toBytes, u.ofBytes_toBytes]
      exact reads_pure u
    have htake := reads_take u.toBytes
    rw [u.length_toBytes] at htake
    have hread := (Binary.reads_below (n := 16) (by decide) (Nat.le_refl UInt64.size)).bind (f := fun n => do
      let b ← Reader.take n
      if b.length = 16 then return Uuid.ofBytes b else Reader.fail .invalid) (htake.bind hcheck)
    rwa [List.append_nil] at hread

@[grind ←] theorem Exact.option {s : Shape α} (hs : s.Exact) : s.option.Exact where
  steady := steady_byte.bind fun _ =>
    .ite (steady_pure _) (.ite (hs.steady.bind fun a => steady_pure _) (steady_fail _))
  ne_nil
    | none => nofun
    | some _ => nofun
  reads
    | none, _ => fun _ => rfl
    | some a, h => by
      have ha : (s.write a).length < UInt64.size := Nat.lt_of_succ_lt h
      exact (reads_byte 1).bind ((hs.reads a ha).map some)

theorem length_le_flatMap {write : α → Bytes} (h : ∀ a, write a ≠ []) (as : List α) :
    as.length ≤ (as.flatMap write).length := by
  induction as with
  | nil => exact Nat.le_refl 0
  | cons a as ih =>
    have hpos : 0 < (write a).length := List.length_pos_iff.mpr (h a)
    rw [List.flatMap_cons, List.length_append, List.length_cons]
    omega

theorem length_le_of_mem (write : α → Bytes) {as : List α} {a : α} (h : a ∈ as) :
    (write a).length ≤ (as.flatMap write).length := by
  induction as with
  | nil => cases h
  | cons b as ih =>
    rw [List.flatMap_cons, List.length_append]
    obtain rfl | h := List.mem_cons.mp h
    · omega
    · have hle := ih h
      omega

@[grind ←] theorem Exact.list {s : Shape α} (hs : s.Exact) : s.list.Exact where
  steady := (Binary.steady_readBelow _).bind fun n => Extends.replicate hs.steady n
  ne_nil as := List.append_ne_nil_of_left_ne_nil (Binary.writeNat_ne_nil _) _
  reads as h := by
    have happ : (s.list.write as).length =
        (Binary.writeNat as.length).length + (as.flatMap s.write).length := List.length_append
    have hcount := length_le_flatMap hs.ne_nil as
    have hitem : ∀ a ∈ as, s.read.Reads (s.write a) a := fun a ha =>
      hs.reads a (by have hle := length_le_of_mem s.write ha; omega)
    exact (Binary.reads_below (by omega) (Nat.le_refl _)).bind (Reads.replicate hitem)

end Shape

/-! ### Records -/

/-- A record that is read back from its bytes, as a layout is. -/
structure Fields.Exact {α : Type} (f : Fields α) : Prop where
  steady : f.read.Steady
  ne_nil : ∀ a, f.write a ≠ []
  reads : ∀ a, (f.write a).length < UInt64.size → f.read.Reads (f.write a) a

namespace Fields

variable {α β : Type}

@[grind ←] theorem exact_last {name : String} {s : Shape α} (hs : s.Exact) : (last name s).Exact where
  steady := hs.steady
  ne_nil := hs.ne_nil
  reads := hs.reads

@[grind ←] theorem exact_field {name : String} {s : Shape α} {rest : Fields β} (hs : s.Exact)
    (hr : rest.Exact) : (field name s rest).Exact where
  steady := hs.steady.bind fun a => hr.steady.bind fun b => steady_pure _
  ne_nil ab := List.append_ne_nil_of_left_ne_nil (hs.ne_nil ab.1) _
  reads ab h := by
    have happ : ((field name s rest).write ab).length =
        (s.write ab.1).length + (rest.write ab.2).length := List.length_append
    have ha := hs.reads ab.1 (by omega)
    have hb := hr.reads ab.2 (by omega)
    exact ha.bind (hb.map fun b => (ab.1, b))

theorem Exact.shape {f : Fields α} (hf : f.Exact) {build : α → β} {view : β → α}
    (h : ∀ b, build (view b) = b) : (f.shape build view).Exact where
  steady := hf.steady.bind fun a => steady_pure _
  ne_nil b := hf.ne_nil (view b)
  reads b hb := by
    have hread := (hf.reads (view b) hb).map build
    rwa [h] at hread

end Fields

/-! ### Variants -/

/-- One kind of values that are read back from their bytes, as those of a layout are. -/
structure Branch.Exact {α : Type} (b : Branch α) : Prop where
  steady : b.read.Steady
  reads : ∀ a payload, b.write? a = some payload → payload.length < UInt64.size →
    b.read.Reads payload a

namespace Branch

variable {α β : Type}

theorem exact_record {name : String} {f : Fields β} {build : β → α} {view : α → Option β}
    (hf : f.Exact) (h : ∀ a b, view a = some b → build b = a) : (record name f build view).Exact where
  steady := hf.steady.bind fun b => steady_pure _
  reads a payload hp hlen := by
    obtain ⟨b, hb, rfl⟩ := Option.map_eq_some_iff.mp hp
    have hread := (hf.reads b hlen).map build
    rwa [h a b hb] at hread

theorem exact_unit {name : String} {value : α} {is : α → Bool} (h : ∀ a, is a → a = value) :
    (unit name value is).Exact where
  steady := steady_pure value
  reads a payload hp _ := by
    obtain ⟨his, hnil⟩ := Option.ite_none_right_eq_some.mp hp
    obtain rfl := h a his
    obtain rfl := Option.some.inj hnil
    exact reads_pure a

/-- What is written is the number of a branch and what the branch writes. -/
theorem writeFrom_eq {branches : List (Branch α)} {a : α}
    (h : ∃ b ∈ branches, (b.write? a).isSome) (i : Nat) :
    ∃ k b payload, branches[k]? = some b ∧ b.write? a = some payload ∧
      writeFrom a i branches = Binary.writeNat (i + k) ++ payload := by
  induction branches generalizing i with
  | nil =>
    obtain ⟨b, hb, -⟩ := h
    cases hb
  | cons b bs ih =>
    cases hb : b.write? a with
    | some payload => exact ⟨0, b, payload, rfl, hb, by rw [writeFrom, hb]; rfl⟩
    | none =>
      have hlater : ∃ c ∈ bs, (c.write? a).isSome := by
        obtain ⟨c, hc, hsome⟩ := h
        obtain rfl | hc := List.mem_cons.mp hc
        · rw [hb] at hsome
          cases hsome
        · exact ⟨c, hc, hsome⟩
      obtain ⟨k, c, payload, hk, hc, hw⟩ := ih hlater (i + 1)
      refine ⟨k + 1, c, payload, hk, hc, ?_⟩
      rw [writeFrom, hb]
      dsimp only
      rw [hw, Nat.add_assoc, Nat.add_comm 1 k]

end Branch

namespace Shape

variable {α : Type}

theorem exact_variant {branches : List (Branch α)} (hb : ∀ b ∈ branches, b.Exact)
    (hcover : ∀ a, ∃ b ∈ branches, (b.write? a).isSome) (hfew : branches.length ≤ UInt32.size) :
    (variant branches).Exact where
  steady := by
    refine (Binary.steady_readBelow _).bind fun i => ?_
    cases h : branches[i]? with
    | none => exact steady_fail _
    | some b => exact (hb b (List.mem_of_getElem? h)).steady
  ne_nil a := by
    obtain ⟨k, b, payload, -, -, hw⟩ := Branch.writeFrom_eq (hcover a) 0
    change Branch.writeFrom a 0 branches ≠ []
    rw [hw]
    exact List.append_ne_nil_of_left_ne_nil (Binary.writeNat_ne_nil _) _
  reads a hlen := by
    obtain ⟨k, b, payload, hk, hp, hw⟩ := Branch.writeFrom_eq (hcover a) 0
    change (Branch.writeFrom a 0 branches).length < UInt64.size at hlen
    change (variant branches).read.Reads (Branch.writeFrom a 0 branches) a
    rw [hw, Nat.zero_add] at *
    obtain ⟨hlt, -⟩ := List.getElem?_eq_some_iff.mp hk
    have hpayload : payload.length < UInt64.size := by
      rw [List.length_append] at hlen
      omega
    have hnumber := Binary.reads_below (Nat.lt_of_lt_of_le hlt hfew) (by decide)
    refine hnumber.bind ?_
    rw [hk]
    exact (hb b (List.mem_of_getElem? hk)).reads a payload hp hpayload

theorem exact_enumeration [DecidableEq α] {values : List (String × α)}
    (hcover : ∀ a, a ∈ values.map (·.2)) (hfew : values.length ≤ UInt32.size) :
    (enumeration values).Exact := by
  refine exact_variant ?_ ?_ ?_
  · intro b hb
    obtain ⟨v, -, rfl⟩ := List.mem_map.mp hb
    exact Branch.exact_unit fun a ha => of_decide_eq_true ha
  · intro a
    obtain ⟨v, hv, rfl⟩ := List.mem_map.mp (hcover a)
    exact ⟨_, List.mem_map_of_mem hv, by simp [Branch.unit]⟩
  · rwa [List.length_map]

end Shape
end EditionGateway
