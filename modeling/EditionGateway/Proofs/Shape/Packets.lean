import EditionGateway.Backend.Layout
import EditionGateway.Proofs.Shape.Exact
import EditionGateway.Shape.Codec

/-!
The layouts of the packets of both editions are exact. So a packet that is not too long is decoded
from its bytes and from no beginning or continuation of them.
-/

namespace EditionGateway

open Binary (Reader)
open Binary.Reader

@[grind ←] theorem Color.exact_shape : Color.shape.Exact :=
  Shape.exact_enumeration (fun c => by cases c <;> decide) (by decide)

namespace TextComponent

theorem writeAll_eq (cs : List TextComponent) : writeAll cs = cs.flatMap write := by
  induction cs with
  | nil => rfl
  | cons c cs ih => rw [writeAll, ih, List.flatMap_cons]

/-- With more fuel no less is read. -/
theorem extends_readAt {fuel fuel' : Nat} (h : fuel ≤ fuel') :
    (readAt fuel).Extends (readAt fuel') := by
  induction fuel generalizing fuel' with
  | zero => nofun
  | succ fuel ih =>
    obtain ⟨fuel', rfl⟩ := Nat.exists_eq_add_of_le' (Nat.lt_of_lt_of_le (Nat.succ_pos fuel) h)
    have hinner := ih (Nat.le_of_succ_le_succ h)
    have hflag := Shape.exact_flag.steady
    rw [readAt, readAt]
    refine .bind Shape.exact_text.steady fun text => ?_
    refine .bind Color.exact_shape.option.steady fun color => ?_
    refine .bind hflag fun bold => .bind hflag fun italic => ?_
    refine .bind hflag fun underlined => .bind hflag fun strikethrough => ?_
    refine .bind (Binary.steady_readBelow _) fun n => ?_
    exact .bind (hinner.replicate n) fun extra => steady_pure _

theorem write_ne_nil : ∀ c : TextComponent, write c ≠ []
  | ⟨text, _, _, _, _, _, _⟩ => by
    simp [write, Shape.exact_text.ne_nil]

/-- A piece is read back if there is fuel for its bytes. -/
theorem reads_write {fuel : Nat} {c : TextComponent} (h : (write c).length < fuel)
    (hlen : (write c).length < UInt64.size) : (readAt fuel).Reads (write c) c := by
  induction fuel generalizing c with
  | zero => exact absurd h (Nat.not_lt_zero _)
  | succ fuel ih =>
    obtain ⟨text, color, bold, italic, underlined, strikethrough, extra⟩ := c
    rw [write, writeAll_eq] at *
    simp only [List.append_assoc, List.length_append] at *
    have hmore : 0 < (Shape.text.write text).length :=
      List.length_pos_iff.mpr (Shape.exact_text.ne_nil text)
    have hcount := Shape.length_le_flatMap write_ne_nil extra
    -- every inner piece is shorter, as the text in front of it takes up a byte at least
    have hinner : ∀ c ∈ extra, (readAt fuel).Reads (write c) c := fun c hc => by
      have hle := Shape.length_le_of_mem write hc
      exact ih (by omega) (by omega)
    have hroom : extra.length < UInt64.size := by omega
    let build (extra : List TextComponent) : TextComponent :=
      ⟨text, color, bold, italic, underlined, strikethrough, extra⟩
    have hextra := (Binary.reads_below hroom (Nat.le_refl UInt64.size)).bind (f := fun n => do
      return build (← replicate n (readAt fuel))) ((Reads.replicate hinner).map build)
    rw [readAt]
    refine (Shape.exact_text.reads text (by omega)).bind ?_
    refine (Color.exact_shape.option.reads color (by omega)).bind ?_
    refine (Shape.exact_flag.reads bold (by omega)).bind ?_
    refine (Shape.exact_flag.reads italic (by omega)).bind ?_
    refine (Shape.exact_flag.reads underlined (by omega)).bind ?_
    exact (Shape.exact_flag.reads strikethrough (by omega)).bind hextra

@[grind ←] theorem exact_shape : shape.Exact where
  steady s t c h x := by
    refine extends_readAt ?_ h x
    rw [List.length_append]
    omega
  ne_nil := write_ne_nil
  reads c hlen x := by
    refine reads_write ?_ hlen x
    rw [List.length_append]
    exact Nat.lt_succ_of_le (Nat.le_add_right _ _)

end TextComponent

@[grind ←] theorem RuntimeId.exact_shape : RuntimeId.shape.Exact := Shape.exact_u64.imap fun _ => rfl

@[grind ←] theorem Vec3.exact_shape : Vec3.shape.Exact :=
  Fields.Exact.shape (Fields.exact_field Shape.exact_f32 <| Fields.exact_field Shape.exact_f32 <|
    Fields.exact_last Shape.exact_f32) fun _ => rfl

@[grind ←] theorem BlockPos.exact_shape : BlockPos.shape.Exact :=
  Fields.Exact.shape (Fields.exact_field Shape.exact_i32 <| Fields.exact_field Shape.exact_i32 <|
    Fields.exact_last Shape.exact_i32) fun _ => rfl

/-! ### The client's edition -/

namespace Client

@[grind ←] theorem PlayStatus.exact_shape : PlayStatus.shape.Exact :=
  Shape.exact_enumeration (fun s => by cases s <;> decide) (by decide)

@[grind ←] theorem PackResponse.exact_shape : PackResponse.shape.Exact :=
  Shape.exact_enumeration (fun s => by cases s <;> decide) (by decide)

@[grind ←] theorem TextKind.exact_shape : TextKind.shape.Exact :=
  Shape.exact_enumeration (fun s => by cases s <;> decide) (by decide)

@[grind ←] theorem MoveMode.exact_shape : MoveMode.shape.Exact :=
  Shape.exact_enumeration (fun s => by cases s <;> decide) (by decide)

@[grind ←] theorem AnimateAction.exact_shape : AnimateAction.shape.Exact :=
  Shape.exact_enumeration (fun s => by cases s <;> decide) (by decide)

@[grind ←] theorem RespawnState.exact_shape : RespawnState.shape.Exact :=
  Shape.exact_enumeration (fun s => by cases s <;> decide) (by decide)

@[grind ←] theorem GameMode.exact_shape : GameMode.shape.Exact :=
  Shape.exact_enumeration (fun s => by cases s <;> decide) (by decide)

namespace Packet

theorem exact_branches : ∀ b ∈ branches, b.Exact := by
  simp only [branches, List.forall_mem_cons, List.not_mem_nil, false_implies, implies_true, and_true]
  and_intros
  all_goals
    refine Branch.exact_record ?_ fun p fields h => ?_
    -- a record is exact if its fields are
    · repeat' refine Fields.exact_field ?_ ?_
      all_goals grind
    · split at h
      · obtain rfl := Option.some.inj h
        rfl
      · cases h

theorem covered (p : Packet) : ∃ b ∈ branches, (b.write? p).isSome := by
  have hlt : p.ctorIdx < branches.length := by cases p <;> exact Nat.le_of_ble_eq_true rfl
  refine ⟨branches.get ⟨p.ctorIdx, hlt⟩, List.get_mem _ _, ?_⟩
  cases p <;> rfl

theorem exact_shape : shape.Exact := Shape.exact_variant exact_branches covered (by decide)

end Packet
end Client

/-! ### The backend's edition -/

namespace Backend

@[grind ←] theorem NextState.exact_shape : NextState.shape.Exact :=
  Shape.exact_enumeration (fun s => by cases s <;> decide) (by decide)

@[grind ←] theorem ChatPosition.exact_shape : ChatPosition.shape.Exact :=
  Shape.exact_enumeration (fun p => by cases p <;> decide) (by decide)

@[grind ←] theorem Hand.exact_shape : Hand.shape.Exact :=
  Shape.exact_enumeration (fun h => by cases h <;> decide) (by decide)

@[grind ←] theorem ClientAction.exact_shape : ClientAction.shape.Exact :=
  Shape.exact_enumeration (fun a => by cases a <;> decide) (by decide)

namespace Packet

theorem exact_branches : ∀ b ∈ branches, b.Exact := by
  simp only [branches, List.forall_mem_cons, List.not_mem_nil, false_implies, implies_true, and_true]
  refine ⟨?_, Branch.exact_unit fun p hp => ?_, ?_⟩
  case refine_2 => cases p <;> first | rfl | cases hp
  all_goals and_intros
  all_goals
    refine Branch.exact_record ?_ fun p fields h => ?_
    · repeat' refine Fields.exact_field ?_ ?_
      all_goals grind
    · split at h
      · obtain rfl := Option.some.inj h
        rfl
      · cases h

theorem covered (p : Packet) : ∃ b ∈ branches, (b.write? p).isSome := by
  have hlt : p.ctorIdx < branches.length := by cases p <;> exact Nat.le_of_ble_eq_true rfl
  refine ⟨branches.get ⟨p.ctorIdx, hlt⟩, List.get_mem _ _, ?_⟩
  cases p <;> rfl

theorem exact_shape : shape.Exact := Shape.exact_variant exact_branches covered (by decide)

end Packet
end Backend

/-! ### Encoding and decoding -/

namespace Shape

variable {α : Type}

/-- A value is refused if and only if its bytes are too many. Otherwise they are decoded as the value,
and neither a beginning nor a continuation of them is decoded. -/
structure Strict (s : Shape α) (a : α) : Prop where
  refused_iff : (∃ e, s.encode a = .error e) ↔ maxPacketLength < (s.write a).length
  accepted : ∀ b, s.encode a = .ok b → s.decode b = .ok a
  shorter : ∀ b c, s.encode a = .ok b → c <+: b → c ≠ b → ∃ f, s.decode c = .error (.unreadable f)
  longer : ∀ b x, s.encode a = .ok b → x ≠ [] → ∃ f, s.decode (b ++ x) = .error (.unreadable f)

theorem encode_eq_ok {s : Shape α} {a : α} {b : Bytes} :
    s.encode a = .ok b ↔ b = s.write a ∧ b.length ≤ maxPacketLength := by
  unfold encode
  dsimp only
  split
  case isTrue h =>
    constructor
    · rintro ⟨⟩
      exact ⟨rfl, h⟩
    · rintro ⟨rfl, -⟩
      rfl
  case isFalse h =>
    constructor
    · nofun
    · rintro ⟨rfl, h'⟩
      exact absurd h' h

theorem decode_of_error {s : Shape α} {b : Bytes} {f : Binary.Fault} (h : s.read.complete b = .error f) :
    s.decode b = .error (.unreadable f) := by
  rw [decode, h]

theorem Exact.reads_of_encode {s : Shape α} (hs : s.Exact) {a : α} {b : Bytes} (h : s.encode a = .ok b) :
    s.read.Reads b a := by
  obtain ⟨rfl, hle⟩ := encode_eq_ok.mp h
  exact hs.reads a (Nat.lt_of_le_of_lt hle (by decide))

theorem Exact.decode_encode {s : Shape α} (hs : s.Exact) {a : α} {b : Bytes} (h : s.encode a = .ok b) :
    s.decode b = .ok a := by
  rw [decode, (hs.reads_of_encode h).complete]

theorem Exact.strict {s : Shape α} (hs : s.Exact) (a : α) : s.Strict a where
  refused_iff := by
    rw [← Nat.not_le]
    constructor
    · rintro ⟨e, he⟩ hle
      rw [encode_eq_ok.mpr ⟨rfl, hle⟩] at he
      cases he
    · intro h
      exact ⟨_, if_neg h⟩
  accepted b h := hs.decode_encode h
  shorter b c h hc hne := by
    obtain ⟨x, rfl⟩ := hc
    have hx : x ≠ [] := fun hnil => hne (by rw [hnil, List.append_nil])
    obtain ⟨f, hf⟩ := hs.steady.complete_of_prefix (hs.reads_of_encode h) rfl hx
    exact ⟨f, decode_of_error hf⟩
  longer b x h hx := ⟨_, decode_of_error ((hs.reads_of_encode h).complete_append hx)⟩

end Shape

/-- The packets of both editions are encoded and decoded strictly. -/
theorem packets_strict :
    (∀ p, Client.Packet.shape.Strict p) ∧ ∀ p, Backend.Packet.shape.Strict p :=
  ⟨Client.Packet.exact_shape.strict, Backend.Packet.exact_shape.strict⟩

/-- A chat message with a piece inside a piece. -/
theorem packets_strict_chat :
    let piece : TextComponent := { text := "b", color := some .red, bold := true }
    let p : Backend.Packet := .chatMessage { text := "", extra := [piece] } none .system
    ∃ b, Backend.Packet.shape.encode p = .ok b ∧ b.length = 19 ∧
      Backend.Packet.shape.decode b = .ok p ∧
      (∃ f, Backend.Packet.shape.decode (b.take 18) = .error (.unreadable f)) ∧
      ∃ f, Backend.Packet.shape.decode (b ++ [0]) = .error (.unreadable f) := by
  intro piece p
  have h := packets_strict.2 p
  refine ⟨Backend.Packet.shape.write p, rfl, rfl, h.accepted _ rfl, ?_, ?_⟩
  · exact h.shorter _ _ rfl (List.take_prefix _ _) (by decide)
  · exact h.longer _ _ rfl (by decide)

end EditionGateway
