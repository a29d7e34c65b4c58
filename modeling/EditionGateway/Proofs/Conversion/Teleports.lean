import EditionGateway.Proofs.Conversion.Entities
import Mathlib.Data.List.Induction

/-!
How a session keeps the teleport that its client has still to confirm, over packets in both directions. A
movement confirms the last teleport if no movement has done so before (`confirms_last`).
-/

namespace EditionGateway

open Conversion

/-- A packet that passes through a session, in one direction or the other. -/
inductive Passage
  | toBackend (p : Client.Packet)
  | toClient (p : Backend.Packet)

namespace Passage

/-- A movement of the client with nothing in it that is not finite. -/
def IsMove : Passage → Prop
  | toBackend (.movePlayer _ position pitch yaw _ _ _) =>
    position.isFinite ∧ isFinite32 pitch ∧ isFinite32 yaw
  | _ => False

/-- What the backend is to be told of a movement. -/
def place? : Passage → Option Backend.Packet
  | toBackend (.movePlayer _ position pitch yaw _ _ onGround) =>
    some (.playerPosition (widen position.x) (widen (sub position.y eyeHeight)) (widen position.z) yaw pitch onGround)
  | _ => none

/-- The teleport that a packet of the backend is about, if its place is finite for the client as well. -/
def teleport? : Passage → Option Int32
  | toClient (.playerPositionAndLook x y z _ _ teleport) =>
    if (⟨narrow x, add (narrow y) eyeHeight, narrow z⟩ : Vec3).isFinite then some teleport else none
  | _ => none

theorem IsMove.teleport? {x : Passage} (h : x.IsMove) : x.teleport? = none := by
  cases x with
  | toBackend p => rfl
  | toClient p => exact h.elim

end Passage

theorem Passage.place?_ne_confirm (x : Passage) (id : Int32) : x.place? ≠ some (.teleportConfirm id) := by
  unfold place?
  split <;> nofun

/-- A teleport is the last one of a history, and no movement has come after it. -/
def Unconfirmed (h : List Passage) (id : Int32) : Prop :=
  ∃ before x later, h = before ++ x :: later ∧ x.teleport? = some id ∧
    ∀ y ∈ later, y.teleport? = none ∧ ¬ y.IsMove

theorem not_unconfirmed_nil (id : Int32) : ¬ Unconfirmed [] id := by
  rintro ⟨before, x, later, heq, -⟩
  cases before <;> cases heq

theorem unconfirmed_concat (h : List Passage) (x : Passage) (id : Int32) :
    Unconfirmed (h ++ [x]) id ↔
      x.teleport? = some id ∨ x.teleport? = none ∧ ¬ x.IsMove ∧ Unconfirmed h id := by
  constructor
  · rintro ⟨before, z, later, heq, hz, hlater⟩
    rcases List.eq_nil_or_concat later with rfl | ⟨later, y, rfl⟩
    · obtain ⟨-, rfl⟩ := List.append_singleton_inj.mp heq
      exact .inl hz
    · rw [List.concat_eq_append, ← List.cons_append, ← List.append_assoc] at heq
      obtain ⟨rfl, rfl⟩ := List.append_singleton_inj.mp heq
      rw [List.concat_eq_append] at hlater
      obtain ⟨hnone, hstill⟩ := hlater x (List.mem_append_right _ List.mem_cons_self)
      exact .inr ⟨hnone, hstill, before, z, later, rfl, hz,
        fun y hy => hlater y (List.mem_append_left _ hy)⟩
  · rintro (hx | ⟨hnone, hstill, before, z, later, rfl, hz, hlater⟩)
    · exact ⟨h, x, [], rfl, hx, nofun⟩
    · refine ⟨before, z, later ++ [x], by simp, hz, fun y hy => ?_⟩
      rcases List.mem_append.mp hy with hy | hy
      · exact hlater y hy
      · rw [List.mem_singleton.mp hy]
        exact ⟨hnone, hstill⟩

/-- What is unconfirmed has come after every movement. -/
theorem Unconfirmed.after_move {before later : List Passage} {x : Passage} {id : Int32}
    (h : Unconfirmed (before ++ x :: later) id) (hx : x.IsMove) : ∃ y ∈ later, y.teleport? = some id := by
  induction later using List.reverseRecOn with
  | nil =>
    rcases (unconfirmed_concat before x id).mp h with hid | ⟨-, hstill, -⟩
    · rw [hx.teleport?] at hid
      cases hid
    · exact absurd hx hstill
  | append_singleton later y ih =>
    rw [← List.cons_append, ← List.append_assoc] at h
    rcases (unconfirmed_concat _ y id).mp h with hid | ⟨-, -, hrest⟩
    · exact ⟨y, List.mem_append_right _ List.mem_cons_self, hid⟩
    · obtain ⟨z, hz, hid⟩ := ih hrest
      exact ⟨z, List.mem_append_left _ hz, hid⟩

namespace Conversion

/-- It gives no confirmation, and the session remembers what it did before. -/
structure Update.IsIdle (u : Update (List Backend.Packet)) (c : SessionContext) : Prop where
  given : Given (·.kind ≠ .teleportConfirm) u
  context : (u c).2 = c

def Converter.IsIdle (t : ToBackend) : Prop := ∀ m c p, (t m c p).IsIdle c

/-- The session still remembers the same teleport. -/
def Converter.KeepsTeleport (t : ToClient) : Prop :=
  ∀ m c p, (t m c p c).2.pendingTeleport = c.pendingTeleport

namespace ToBackend

section Idle

variable (c : SessionContext)

theorem isIdle_nil : (Update.ok (([] : List Backend.Packet), c)).IsIdle c := ⟨given_nil c, rfl⟩

theorem isIdle_singleton {q : Backend.Packet} (h : q.kind ≠ .teleportConfirm) :
    (Update.ok ([q], c)).IsIdle c :=
  ⟨given_singleton c h, rfl⟩

end Idle

theorem text_isIdle : Converter.IsIdle text := by
  intro m c p
  unfold text
  split
  · split
    · exact isIdle_singleton c nofun
    · exact isIdle_nil c
  · exact isIdle_nil c

theorem command_isIdle : Converter.IsIdle command := by
  intro m c p
  unfold command
  split
  · dsimp only
    split
    · exact isIdle_nil c
    · exact isIdle_singleton c nofun
  · exact isIdle_nil c

theorem animate_isIdle : Converter.IsIdle animate := by
  intro m c p
  unfold animate
  split
  · exact isIdle_singleton c nofun
  · exact isIdle_nil c

theorem chunkRadius_isIdle : Converter.IsIdle chunkRadius := by
  intro m c p
  unfold chunkRadius
  split
  · exact isIdle_singleton c nofun
  · exact isIdle_nil c

theorem respawn_isIdle : Converter.IsIdle respawn := by
  intro m c p
  unfold respawn
  split
  · exact isIdle_singleton c nofun
  · exact isIdle_nil c

theorem latency_isIdle : Converter.IsIdle latency := by
  intro m c p
  unfold latency
  split
  · split
    · exact isIdle_nil c
    · split
      · exact isIdle_singleton c nofun
      · exact ⟨given_error _, rfl⟩
  · exact isIdle_nil c

theorem converters_isIdle {k : Client.Kind} {t : ToBackend} (h : (k, t) ∈ converters)
    (hmove : k ≠ .movePlayer) : Converter.IsIdle t := by
  simp only [converters, List.mem_cons, Prod.mk.injEq, List.not_mem_nil, or_false] at h
  rcases h with ⟨-, rfl⟩ | ⟨-, rfl⟩ | ⟨rfl, -⟩ | ⟨-, rfl⟩ | ⟨-, rfl⟩ | ⟨-, rfl⟩ | ⟨-, rfl⟩
  · exact text_isIdle
  · exact command_isIdle
  · exact absurd rfl hmove
  · exact animate_isIdle
  · exact chunkRadius_isIdle
  · exact respawn_isIdle
  · exact latency_isIdle

end ToBackend

namespace ToClient

theorem chatMessage_keepsTeleport : Converter.KeepsTeleport chatMessage := by
  intro m c p
  unfold chatMessage
  split
  · dsimp only
    split <;> rfl
  · rfl

theorem joinGame_keepsTeleport : Converter.KeepsTeleport joinGame := by
  intro m c p
  unfold joinGame
  split
  · next dimension _ _ _ _ => cases dimension? dimension <;> rfl
  · rfl

theorem keepAlive_keepsTeleport : Converter.KeepsTeleport keepAlive := by
  intro m c p
  unfold keepAlive
  split
  · split <;> rfl
  · rfl

theorem timeUpdate_keepsTeleport : Converter.KeepsTeleport timeUpdate := by
  intro m c p
  unfold timeUpdate
  split <;> rfl

theorem updateHealth_keepsTeleport : Converter.KeepsTeleport updateHealth := by
  intro m c p
  unfold updateHealth
  split
  · split <;> rfl
  · rfl

theorem pendingTeleport_mapEntity (c : SessionContext) (entity : Int32) :
    (c.mapEntity entity).2.pendingTeleport = c.pendingTeleport := by
  unfold SessionContext.mapEntity
  split <;> rfl

theorem spawnEntity_keepsTeleport : Converter.KeepsTeleport spawnEntity := by
  intro m c p
  unfold spawnEntity
  split
  · next type _ _ _ _ _ =>
    cases m.entity? type with
    | none => rfl
    | some identifier => exact pendingTeleport_mapEntity c _
  · rfl

theorem pendingTeleport_forgetAll (c : SessionContext) (entities : List Int32) :
    (forgetAll c entities).2.pendingTeleport = c.pendingTeleport := by
  rw [forgetAll_eq]
  have hnext (s : List RuntimeId × SessionContext) (entity : Int32) :
      (forgetNext s entity).2.pendingTeleport = s.2.pendingTeleport := by
    unfold forgetNext SessionContext.forgetEntity
    dsimp only
    split <;> rfl
  suffices hall : ∀ s : List RuntimeId × SessionContext,
      (entities.foldl forgetNext s).2.pendingTeleport = s.2.pendingTeleport from hall ([], c)
  induction entities with
  | nil => exact fun s => rfl
  | cons entity entities ih => exact fun s => (ih _).trans (hnext s entity)

theorem removeEntities_keepsTeleport : Converter.KeepsTeleport removeEntities := by
  intro m c p
  unfold removeEntities
  split
  · exact pendingTeleport_forgetAll c _
  · rfl

theorem blockChange_keepsTeleport : Converter.KeepsTeleport blockChange := by
  intro m c p
  unfold blockChange
  split
  · next state => cases m.block? state <;> rfl
  · rfl

theorem soundEffect_keepsTeleport : Converter.KeepsTeleport soundEffect := by
  intro m c p
  unfold soundEffect
  split
  · next id _ _ _ _ _ => cases m.sound? id <;> rfl
  · rfl

theorem disconnect_keepsTeleport : Converter.KeepsTeleport disconnect := by
  intro m c p
  unfold disconnect
  split <;> rfl

theorem converters_keepTeleport {k : Backend.Kind} {t : ToClient} (h : (k, t) ∈ converters)
    (hteleport : k ≠ .playerPositionAndLook) : Converter.KeepsTeleport t := by
  simp only [converters, List.mem_cons, Prod.mk.injEq, List.not_mem_nil, or_false] at h
  rcases h with ⟨-, rfl⟩ | ⟨-, rfl⟩ | ⟨-, rfl⟩ | ⟨rfl, -⟩ | ⟨-, rfl⟩ | ⟨-, rfl⟩ | ⟨-, rfl⟩ |
    ⟨-, rfl⟩ | ⟨-, rfl⟩ | ⟨-, rfl⟩ | ⟨-, rfl⟩
  · exact chatMessage_keepsTeleport
  · exact joinGame_keepsTeleport
  · exact keepAlive_keepsTeleport
  · exact absurd rfl hteleport
  · exact timeUpdate_keepsTeleport
  · exact updateHealth_keepsTeleport
  · exact spawnEntity_keepsTeleport
  · exact removeEntities_keepsTeleport
  · exact blockChange_keepsTeleport
  · exact soundEffect_keepsTeleport
  · exact disconnect_keepsTeleport

end ToClient
end Conversion

namespace Converters

/-- What an apply leaves is what its converter leaves. -/
theorem context_apply {source target : Type} {m : Mappings} {t? : Option (Converter source target)}
    {Q : SessionContext → Prop} {c : SessionContext} {p : source} (hc : Q c)
    (ht : ∀ t, t? = some t → Q (t m c p c).2) (stats : ConversionStats) :
    Q (apply m t? stats c p).context := by
  unfold apply
  split
  · exact hc
  · next t =>
    have hleft := ht t rfl
    split
    · next hok => rwa [hok] at hleft
    · next herr =>
      rw [herr] at hleft
      split <;> exact hleft

section Dispatch

variable (m : Mappings) (stats : ConversionStats) (c : SessionContext)

/-- Only movements confirm teleports. -/
theorem dispatch_idle {p : Client.Packet} (hp : p.kind ≠ .movePlayer) :
    (∀ q ∈ ((standard m).dispatchToBackend stats c p).packets, q.kind ≠ .teleportConfirm) ∧
      ((standard m).dispatchToBackend stats c p).context = c := by
  have hidle {t : ToBackend} (ht : (standard m).toBackend.get? p.kind = some t) : t.IsIdle :=
    ToBackend.converters_isIdle (Table.mem_of_get? ht) hp
  exact ⟨mem_apply fun t ht m c p => (hidle ht m c p).given,
    context_apply (Q := fun d => d = c) rfl (fun t ht => (hidle ht _ c p).context) stats⟩

theorem dispatch_keepsTeleport {p : Backend.Packet} (hp : p.kind ≠ .playerPositionAndLook) :
    ((standard m).dispatchToClient stats c p).context.pendingTeleport = c.pendingTeleport :=
  context_apply (Q := fun d => d.pendingTeleport = c.pendingTeleport) rfl
    (fun _ ht => ToClient.converters_keepTeleport (Table.mem_of_get? ht) hp _ c p) stats

theorem dispatch_movePlayer (id : RuntimeId) (position : Vec3) (pitch yaw headYaw : UInt32)
    (mode : Client.MoveMode) (onGround : Bool) :
    let d := (standard m).dispatchToBackend stats c (.movePlayer id position pitch yaw headYaw mode onGround)
    if position.isFinite ∧ isFinite32 pitch ∧ isFinite32 yaw then
      d.packets = (c.pendingTeleport.map Backend.Packet.teleportConfirm).toList ++
        [.playerPosition (widen position.x) (widen (sub position.y eyeHeight)) (widen position.z) yaw pitch onGround] ∧
      d.context.pendingTeleport = none
    else d.packets = [] ∧ d.context = c := by
  intro d
  have hd : d = apply m (some ToBackend.movePlayer) stats c
    (.movePlayer id position pitch yaw headYaw mode onGround) := rfl
  rw [hd]
  unfold apply ToBackend.movePlayer Update.require
  by_cases hfinite : position.isFinite ∧ isFinite32 pitch ∧ isFinite32 yaw
  · simp only [if_pos hfinite]
    exact ⟨rfl, rfl⟩
  · simp only [if_neg hfinite]
    exact ⟨rfl, rfl⟩

theorem dispatch_positionAndLook (x y z : UInt64) (yaw pitch : UInt32) (teleport : Int32) :
    let d := (standard m).dispatchToClient stats c (.playerPositionAndLook x y z yaw pitch teleport)
    if (⟨narrow x, add (narrow y) eyeHeight, narrow z⟩ : Vec3).isFinite then
      d.packets ≠ [] ∧ d.context.pendingTeleport = some teleport
    else d.packets = [] ∧ d.context = c := by
  intro d
  have hd : d = apply m (some ToClient.positionAndLook) stats c
    (.playerPositionAndLook x y z yaw pitch teleport) := rfl
  rw [hd]
  unfold apply ToClient.positionAndLook Update.require
  by_cases hfinite : (⟨narrow x, add (narrow y) eyeHeight, narrow z⟩ : Vec3).isFinite
  · simp only [if_pos hfinite]
    exact ⟨List.cons_ne_nil _ _, rfl⟩
  · simp only [if_neg hfinite]
    exact ⟨rfl, rfl⟩

end Dispatch

/-- The counters and the session after a packet has been dispatched. -/
def pass (t : Converters) (s : ConversionStats × SessionContext) : Passage → ConversionStats × SessionContext
  | .toBackend p => ((t.dispatchToBackend s.1 s.2 p).stats, (t.dispatchToBackend s.1 s.2 p).context)
  | .toClient p => ((t.dispatchToClient s.1 s.2 p).stats, (t.dispatchToClient s.1 s.2 p).context)

/-- Those after a run of packets, in any order of the directions. -/
def passAll (t : Converters) (s : ConversionStats × SessionContext) (h : List Passage) :
    ConversionStats × SessionContext :=
  h.foldl t.pass s

/-- What the backend gets of a packet. -/
def yields (t : Converters) (s : ConversionStats × SessionContext) : Passage → List Backend.Packet
  | .toBackend p => (t.dispatchToBackend s.1 s.2 p).packets
  | .toClient _ => []

section Pass

variable (m : Mappings) (s : ConversionStats × SessionContext)

/-- A movement confirms what is pending, and nothing is pending afterwards. -/
theorem pass_move {x : Passage} (hx : x.IsMove) :
    (∃ place : Backend.Packet, x.place? = some place ∧
      (standard m).yields s x = (s.2.pendingTeleport.map Backend.Packet.teleportConfirm).toList ++ [place]) ∧
    ((standard m).pass s x).2.pendingTeleport = none := by
  match x, hx with
  | .toBackend (.movePlayer id position pitch yaw headYaw mode onGround), hx =>
    have hmove := dispatch_movePlayer m s.1 s.2 id position pitch yaw headYaw mode onGround
    have hfinite : position.isFinite ∧ isFinite32 pitch ∧ isFinite32 yaw := hx
    simp only [if_pos hfinite] at hmove
    exact ⟨⟨_, rfl, hmove.1⟩, hmove.2⟩

theorem pass_teleport {p : Backend.Packet} {id : Int32} (hp : (Passage.toClient p).teleport? = some id) :
    ((standard m).dispatchToClient s.1 s.2 p).packets ≠ [] ∧
      ((standard m).pass s (.toClient p)).2.pendingTeleport = some id := by
  match p, hp with
  | .playerPositionAndLook x y z yaw pitch teleport, hp =>
    have hlook := dispatch_positionAndLook m s.1 s.2 x y z yaw pitch teleport
    simp only [Passage.teleport?] at hp
    split at hp
    · next hfinite =>
      simp only [if_pos hfinite] at hlook
      exact ⟨hlook.1, hlook.2.trans hp⟩
    · cases hp

/-- A movement with something in it that is not finite leaves no trace. -/
theorem pass_lost_move {p : Client.Packet} (hp : p.kind = .movePlayer) (lost : ¬ (Passage.toBackend p).IsMove) :
    (standard m).yields s (.toBackend p) = [] ∧ ((standard m).pass s (.toBackend p)).2 = s.2 := by
  match p, hp with
  | .movePlayer id position pitch yaw headYaw mode onGround, _ =>
    have hmove := dispatch_movePlayer m s.1 s.2 id position pitch yaw headYaw mode onGround
    have hfinite : ¬ (position.isFinite ∧ isFinite32 pitch ∧ isFinite32 yaw) := lost
    simp only [if_neg hfinite] at hmove
    exact hmove

/-- Neither does a teleport to a place that is not finite. -/
theorem pass_lost_teleport {p : Backend.Packet} (hp : p.kind = .playerPositionAndLook)
    (lost : (Passage.toClient p).teleport? = none) :
    ((standard m).dispatchToClient s.1 s.2 p).packets = [] ∧ ((standard m).pass s (.toClient p)).2 = s.2 := by
  match p, hp with
  | .playerPositionAndLook x y z yaw pitch teleport, _ =>
    have hlook := dispatch_positionAndLook m s.1 s.2 x y z yaw pitch teleport
    simp only [Passage.teleport?] at lost
    split at lost
    · cases lost
    · next hfinite =>
      simp only [if_neg hfinite] at hlook
      exact hlook

/-- Of other packets the backend gets no confirmation, and what is pending stays so. -/
theorem pass_other {x : Passage} (hmove : ¬ x.IsMove) (hteleport : x.teleport? = none) :
    (∀ q ∈ (standard m).yields s x, q.kind ≠ .teleportConfirm) ∧
      ((standard m).pass s x).2.pendingTeleport = s.2.pendingTeleport := by
  cases x with
  | toBackend p =>
    by_cases hp : p.kind = .movePlayer
    · obtain ⟨hnothing, hsame⟩ := pass_lost_move m s hp hmove
      rw [hnothing, hsame]
      exact ⟨nofun, rfl⟩
    · obtain ⟨hidle, hsame⟩ := dispatch_idle m s.1 s.2 hp
      exact ⟨hidle, congrArg SessionContext.pendingTeleport hsame⟩
  | toClient p =>
    refine ⟨nofun, ?_⟩
    by_cases hp : p.kind = .playerPositionAndLook
    · rw [(pass_lost_teleport m s hp hteleport).2]
    · exact dispatch_keepsTeleport m s.1 s.2 hp

end Pass

theorem passAll_concat (t : Converters) (s : ConversionStats × SessionContext) (h : List Passage) (x : Passage) :
    t.passAll s (h ++ [x]) = t.pass (t.passAll s h) x := by
  simp [passAll]

/-- The session remembers the teleport that is unconfirmed. -/
theorem pending_iff (m : Mappings) (stats : ConversionStats) {c : SessionContext}
    (fresh : c.pendingTeleport = none) (h : List Passage) (id : Int32) :
    ((standard m).passAll (stats, c) h).2.pendingTeleport = some id ↔ Unconfirmed h id := by
  induction h using List.reverseRecOn with
  | nil =>
    change c.pendingTeleport = some id ↔ _
    rw [fresh]
    exact ⟨nofun, fun hid => absurd hid (not_unconfirmed_nil id)⟩
  | append_singleton h x ih =>
    rw [passAll_concat, unconfirmed_concat, ← ih]
    generalize (standard m).passAll (stats, c) h = s
    by_cases hmove : x.IsMove
    · rw [(pass_move m s hmove).2, hmove.teleport?]
      simp [hmove]
    · cases hteleport : x.teleport? with
      | some teleport =>
        cases x with
        | toBackend p => cases hteleport
        | toClient p =>
          rw [(pass_teleport m s hteleport).2]
          simp
      | none =>
        rw [(pass_other m s hmove hteleport).2]
        simp [hmove]

/-- Only a movement gives a confirmation, and only of what is pending. -/
theorem mem_yields (m : Mappings) (s : ConversionStats × SessionContext) {x : Passage} {id : Int32}
    (h : .teleportConfirm id ∈ (standard m).yields s x) : x.IsMove ∧ s.2.pendingTeleport = some id := by
  by_cases hmove : x.IsMove
  · refine ⟨hmove, ?_⟩
    obtain ⟨⟨place, hplace, heq⟩, -⟩ := pass_move m s hmove
    rw [heq, List.mem_append, List.mem_singleton] at h
    rcases h with h | rfl
    · obtain ⟨teleport, hteleport, heq⟩ := Option.map_eq_some_iff.mp (Option.mem_toList.mp h)
      rw [hteleport, Backend.Packet.teleportConfirm.inj heq]
    · exact absurd hplace (x.place?_ne_confirm id)
  · exfalso
    cases hteleport : x.teleport? with
    | none => exact (pass_other m s hmove hteleport).1 _ h rfl
    | some teleport =>
      cases x with
      | toBackend p => cases hteleport
      | toClient p => cases h

/-- However packets of both directions come, a movement gives its place to the backend, and right before it
the confirmation of the teleport that is unconfirmed, if there is one: the last one that has come, and no
movement since. Nothing else gives a confirmation, so that between two of them there is a teleport, the one
that the second confirms. A movement or a teleport that is not finite gives nothing and leaves the session as
it is. -/
theorem confirms_last (m : Mappings) (stats : ConversionStats) {c : SessionContext}
    (fresh : c.pendingTeleport = none) (h : List Passage) :
    let s := (standard m).passAll (stats, c) h
    (∀ x : Passage, x.IsMove → ∃ (pending : Option Int32) (place : Backend.Packet),
      (∀ id, pending = some id ↔ Unconfirmed h id) ∧ x.place? = some place ∧
      (standard m).yields s x = (pending.map Backend.Packet.teleportConfirm).toList ++ [place]) ∧
    (∀ x id, .teleportConfirm id ∈ (standard m).yields s x → x.IsMove ∧ Unconfirmed h id) ∧
    (∀ before x later, h = before ++ x :: later →
      ∀ i, .teleportConfirm i ∈ (standard m).yields ((standard m).passAll (stats, c) before) x →
      ∀ y j, .teleportConfirm j ∈ (standard m).yields s y → ∃ z ∈ later, z.teleport? = some j) ∧
    (∀ p : Client.Packet, p.kind = .movePlayer → ¬ (Passage.toBackend p).IsMove →
      (standard m).yields s (.toBackend p) = [] ∧ ((standard m).pass s (.toBackend p)).2 = s.2) ∧
    (∀ p : Backend.Packet, p.kind = .playerPositionAndLook →
      if (Passage.toClient p).teleport?.isSome then ((standard m).dispatchToClient s.1 s.2 p).packets ≠ []
      else ((standard m).dispatchToClient s.1 s.2 p).packets = [] ∧
        ((standard m).pass s (.toClient p)).2 = s.2) := by
  intro s
  have hpending (id : Int32) : s.2.pendingTeleport = some id ↔ Unconfirmed h id :=
    pending_iff m stats fresh h id
  refine ⟨fun x hx => ?_, fun x id hid => ?_, ?_, fun p => pass_lost_move m s, fun p hp => ?_⟩
  · obtain ⟨⟨place, hplace, heq⟩, -⟩ := pass_move m s hx
    exact ⟨s.2.pendingTeleport, place, hpending, hplace, heq⟩
  · obtain ⟨hx, hid⟩ := mem_yields m s hid
    exact ⟨hx, (hpending id).mp hid⟩
  · rintro before x later rfl i hi y j hj
    have hunconfirmed : Unconfirmed (before ++ x :: later) j := (hpending j).mp (mem_yields m s hj).2
    exact hunconfirmed.after_move (mem_yields m _ hi).1
  · cases hteleport : (Passage.toClient p).teleport? with
    | none => exact pass_lost_teleport m s hp hteleport
    | some teleport => exact (pass_teleport m s hteleport).1

/-- A packet that brings the player to the height of 64. -/
def lookAt64 (teleport : Int32) : Passage := .toClient (.playerPositionAndLook 0 0x4050000000000000 0 0 0 teleport)

/-- A movement along the first axis. -/
def moveAt (x : UInt32) : Passage := .toBackend (.movePlayer .player ⟨x, 0, 0⟩ 0 0 0 .normal true)

/-- After a movement that is not finite and a packet that does not matter, the next movement confirms a teleport,
as far as that is finite, and the one after it confirms nothing. -/
theorem confirms_last_of_two :
    let c : SessionContext := { id := ⟨1⟩ }
    let h := [lookAt64 7, moveAt 0x7fc00000, .toClient (.keepAlive 1)]
    let t := standard {}
    c.pendingTeleport = none ∧ (moveAt 0).IsMove ∧ ¬ (moveAt 0x7fc00000).IsMove ∧
      (∃ place, (moveAt 0).place? = some place ∧ t.yields (t.passAll ({}, c) h) (moveAt 0) =
        ((lookAt64 7).teleport?.map Backend.Packet.teleportConfirm).toList ++ [place]) ∧
      ∀ id, ¬ .teleportConfirm id ∈ t.yields (t.passAll ({}, c) (h ++ [moveAt 0])) (moveAt 0) := by
  intro c h t
  have hmove : (moveAt 0).IsMove := ⟨by decide, by decide, by decide⟩
  have hlost : ¬ (moveAt 0x7fc00000).IsMove := fun hx => absurd hx.1 (by decide)
  have hlast (id : Int32) : Unconfirmed h id ↔ (lookAt64 7).teleport? = some id := by
    rw [show h = [] ++ [lookAt64 7] ++ [moveAt 0x7fc00000] ++ [.toClient (.keepAlive 1)] from rfl]
    simp only [unconfirmed_concat, not_unconfirmed_nil, hlost, and_false, or_false]
    simp [Passage.teleport?, Passage.IsMove, moveAt]
  obtain ⟨pending, place, hpending, hplace, heq⟩ := (confirms_last {} {} (c := c) rfl h).1 (moveAt 0) hmove
  have hsame : pending = (lookAt64 7).teleport? := Option.ext fun id => (hpending id).trans (hlast id)
  refine ⟨rfl, hmove, hlost, ⟨place, hplace, hsame ▸ heq⟩, fun id hid => ?_⟩
  obtain ⟨-, hagain⟩ := (confirms_last {} {} (c := c) rfl (h ++ [moveAt 0])).2.1 (moveAt 0) id hid
  obtain ⟨z, hz, -⟩ := hagain.after_move hmove
  cases hz

end Converters
end EditionGateway
