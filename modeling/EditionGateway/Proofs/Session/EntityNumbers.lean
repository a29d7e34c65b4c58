import EditionGateway.Session.Context

/-!
The numbers by which a session knows the entities of the backend. As long as there are numbers left, no two
entities share one, and only the player's entity has the player's.
-/

namespace EditionGateway
namespace SessionContext

theorem runtimeId?_fresh {c : SessionContext} (fresh : c.entities = {}) (entity : Int32) :
    c.runtimeId? entity = none := by
  unfold runtimeId?
  rw [fresh]
  rfl

section Changes

variable (c : SessionContext) (entity x : Int32)

theorem runtimeId?_bindPlayer :
    (c.bindPlayer entity).runtimeId? x =
      if x = entity then some .player
      else if c.entities.player = some x then none
      else c.runtimeId? x := by
  unfold bindPlayer runtimeId?
  dsimp only
  rw [Table.get?_insert]
  cases hplayer : c.entities.player with
  | none => simp
  | some old =>
    dsimp only
    rw [Table.get?_erase]
    simp only [Option.some.injEq, eq_comm]

theorem mapEntity_of_known {r : RuntimeId} (h : c.runtimeId? entity = some r) :
    c.mapEntity entity = (r, c) := by
  unfold mapEntity
  rw [show c.entities.byBackend.get? entity = some r from h]

/-- An entity without a number gets the next one. -/
theorem mapEntity_of_unknown (h : c.runtimeId? entity = none) :
    c.mapEntity entity = (⟨c.nextRuntimeId⟩, { c with
      nextRuntimeId := c.nextRuntimeId + 1
      entities := { c.entities with
        byBackend := c.entities.byBackend.insert entity ⟨c.nextRuntimeId⟩ } }) := by
  unfold mapEntity
  rw [show c.entities.byBackend.get? entity = none from h]
  rfl

theorem forgetEntity_of_player (h : c.entities.player = some entity) :
    c.forgetEntity entity = (none, c) :=
  if_pos h

theorem forgetEntity_of_other (h : c.entities.player ≠ some entity) :
    c.forgetEntity entity = (c.runtimeId? entity,
      { c with entities := { c.entities with byBackend := c.entities.byBackend.erase entity } }) :=
  if_neg h

end Changes

/-- `n` numbers have been handed out, and the entities that the client knows have some of them. -/
structure Numbered (c : SessionContext) (n : Nat) : Prop where
  next : c.nextRuntimeId = UInt64.ofNat (n + 2)
  player : ∀ x, c.runtimeId? x = some .player ↔ c.entities.player = some x
  old : ∀ x r, c.runtimeId? x = some r → r ≠ .player → r.value.toNat < n + 2
  distinct : ∀ x y r, c.runtimeId? x = some r → c.runtimeId? y = some r → x = y

namespace Numbered

variable {c : SessionContext} {n : Nat}

theorem start (fresh : c.entities = {}) (first : c.nextRuntimeId = 2) : c.Numbered 0 := by
  refine ⟨first, fun x => ?_, fun x r hx => ?_, fun x y r hx => ?_⟩
  · rw [runtimeId?_fresh fresh, fresh]
    exact ⟨nofun, nofun⟩
  · rw [runtimeId?_fresh fresh] at hx
    cases hx
  · rw [runtimeId?_fresh fresh] at hx
    cases hx

/-- Only what a session knows of entities matters. -/
theorem congr (h : c.Numbered n) {d : SessionContext} (same : d.entities = c.entities)
    (next : d.nextRuntimeId = c.nextRuntimeId) : d.Numbered n := by
  have hget (x : Int32) : d.runtimeId? x = c.runtimeId? x := by
    unfold runtimeId?
    rw [same]
  refine ⟨next.trans h.next, fun x => ?_, fun x r hx => ?_, fun x y r hx hy => ?_⟩
  · rw [hget, same]
    exact h.player x
  · exact h.old x r (hget x ▸ hx)
  · exact h.distinct x y r (hget x ▸ hx) (hget y ▸ hy)

theorem bindPlayer (h : c.Numbered n) (entity : Int32) : (c.bindPlayer entity).Numbered n := by
  -- an entity that is not the new player has the number it had before, and that is not the player's
  have hother {x : Int32} {r : RuntimeId} (hne : x ≠ entity)
      (hx : (c.bindPlayer entity).runtimeId? x = some r) : c.runtimeId? x = some r ∧ r ≠ .player := by
    rw [runtimeId?_bindPlayer, if_neg hne] at hx
    split at hx
    · cases hx
    · next hnot =>
      refine ⟨hx, ?_⟩
      rintro rfl
      exact hnot ((h.player x).mp hx)
  have hself : (c.bindPlayer entity).runtimeId? entity = some .player := by
    rw [runtimeId?_bindPlayer, if_pos rfl]
  refine ⟨h.next, fun x => ⟨fun hx => ?_, fun hx => ?_⟩, fun x r hx hr => ?_, fun x y r hx hy => ?_⟩
  · by_cases hne : x = entity
    · rw [hne]
      rfl
    · exact absurd rfl (hother hne hx).2
  · obtain rfl : entity = x := Option.some.inj hx
    exact hself
  · by_cases hne : x = entity
    · rw [hne, hself] at hx
      exact absurd (Option.some.inj hx).symm hr
    · exact h.old x r (hother hne hx).1 hr
  · by_cases hxe : x = entity <;> by_cases hye : y = entity
    · rw [hxe, hye]
    · rw [hxe, hself] at hx
      exact absurd (Option.some.inj hx).symm (hother hye hy).2
    · rw [hye, hself] at hy
      exact absurd (Option.some.inj hy).symm (hother hxe hx).2
    · exact h.distinct x y r (hother hxe hx).1 (hother hye hy).1

theorem next_toNat (h : c.Numbered n) (room : n + 2 < UInt64.size) : c.nextRuntimeId.toNat = n + 2 := by
  rw [h.next]
  exact UInt64.toNat_ofNat_of_lt room

theorem next_ne_player (h : c.Numbered n) (room : n + 2 < UInt64.size) :
    (⟨c.nextRuntimeId⟩ : RuntimeId) ≠ .player := by
  intro heq
  have hnext := h.next_toNat room
  have hone : c.nextRuntimeId = 1 := congrArg RuntimeId.value heq
  rw [hone] at hnext
  have : (1 : UInt64).toNat = 1 := rfl
  omega

/-- The next number is that of no entity. -/
theorem next_ne (h : c.Numbered n) (room : n + 2 < UInt64.size) {x : Int32} {r : RuntimeId}
    (hx : c.runtimeId? x = some r) : r ≠ ⟨c.nextRuntimeId⟩ := by
  rintro rfl
  have hold : c.nextRuntimeId.toNat < n + 2 := h.old x _ hx (h.next_ne_player room)
  rw [h.next_toNat room] at hold
  omega

/-- An entity without a number gets one that no other has. -/
theorem handOut (h : c.Numbered n) (room : n + 2 < UInt64.size) {entity : Int32}
    (hnew : c.runtimeId? entity = none) :
    (c.mapEntity entity).2.Numbered (n + 1) ∧ ∀ x, (c.mapEntity entity).2.runtimeId? x =
      if x = entity then some ⟨c.nextRuntimeId⟩ else c.runtimeId? x := by
  rw [c.mapEntity_of_unknown entity hnew]
  generalize hd : ({ c with
    nextRuntimeId := c.nextRuntimeId + 1
    entities := { c.entities with
      byBackend := c.entities.byBackend.insert entity ⟨c.nextRuntimeId⟩ } } : SessionContext) = d
  have hget (x : Int32) :
      d.runtimeId? x = if x = entity then some ⟨c.nextRuntimeId⟩ else c.runtimeId? x := by
    rw [← hd]
    exact Table.get?_insert ..
  have hplayer : d.entities.player = c.entities.player := by rw [← hd]
  have hself : d.runtimeId? entity = some ⟨c.nextRuntimeId⟩ := by rw [hget, if_pos rfl]
  have hunbound : c.entities.player ≠ some entity := by
    intro hbound
    rw [(h.player entity).mpr hbound] at hnew
    cases hnew
  refine ⟨⟨?_, fun x => ?_, fun x r hx hr => ?_, fun x y r hx hy => ?_⟩, hget⟩
  · have hsucc : d.nextRuntimeId = c.nextRuntimeId + 1 := by rw [← hd]
    rw [hsucc, h.next]
    exact (UInt64.ofNat_add (n + 2) 1).symm
  · by_cases hne : x = entity
    · rw [hne, hself, hplayer]
      exact ⟨fun heq => absurd (Option.some.inj heq) (h.next_ne_player room),
        fun hbound => absurd hbound hunbound⟩
    · rw [hget, if_neg hne, hplayer]
      exact h.player x
  · by_cases hne : x = entity
    · rw [hne, hself] at hx
      rw [← Option.some.inj hx]
      dsimp only
      rw [h.next_toNat room]
      exact Nat.lt_succ_self _
    · rw [hget, if_neg hne] at hx
      exact Nat.lt_succ_of_lt (h.old x r hx hr)
  · by_cases hxe : x = entity <;> by_cases hye : y = entity
    · rw [hxe, hye]
    · rw [hxe, hself] at hx
      rw [hget, if_neg hye] at hy
      exact absurd (Option.some.inj hx).symm (h.next_ne room hy)
    · rw [hye, hself] at hy
      rw [hget, if_neg hxe] at hx
      exact absurd (Option.some.inj hy).symm (h.next_ne room hx)
    · rw [hget, if_neg hxe] at hx
      rw [hget, if_neg hye] at hy
      exact h.distinct x y r hx hy

/-- An entity that is not the player's loses its number. -/
theorem takeBack (h : c.Numbered n) {entity : Int32} (hother : c.entities.player ≠ some entity) :
    (c.forgetEntity entity).2.Numbered n ∧ ∀ x, (c.forgetEntity entity).2.runtimeId? x =
      if x = entity then none else c.runtimeId? x := by
  rw [c.forgetEntity_of_other entity hother]
  generalize hd : ({ c with
    entities := { c.entities with byBackend := c.entities.byBackend.erase entity } } :
      SessionContext) = d
  have hget (x : Int32) : d.runtimeId? x = if x = entity then none else c.runtimeId? x := by
    rw [← hd]
    exact Table.get?_erase ..
  have hkept {x : Int32} {r : RuntimeId} (hx : d.runtimeId? x = some r) : c.runtimeId? x = some r := by
    rw [hget] at hx
    split at hx
    · cases hx
    · exact hx
  have hplayer : d.entities.player = c.entities.player := by rw [← hd]
  have hnext : d.nextRuntimeId = c.nextRuntimeId := by rw [← hd]
  refine ⟨⟨hnext.trans h.next, fun x => ?_, fun x r hx => h.old x r (hkept hx),
    fun x y r hx hy => h.distinct x y r (hkept hx) (hkept hy)⟩, hget⟩
  rw [hplayer]
  refine ⟨fun hx => (h.player x).mp (hkept hx), fun hbound => ?_⟩
  have hne : x ≠ entity := fun heq => hother (heq ▸ hbound)
  rw [hget, if_neg hne]
  exact (h.player x).mpr hbound

end Numbered
end SessionContext
end EditionGateway
