import EditionGateway.Proofs.Session.EntityNumbers
import Mathlib.Data.Set.Card

/-!
The numbers of entities over any sequence of calls on a new session. A number stands for one entity, the
player's for the one that was bound last, and a new number is one that no call has given before.
-/

namespace EditionGateway

/-- The calls on a session that are about the numbers of entities. -/
inductive EntityCall
  | allocate
  | bind (entity : Int32)
  | map (entity : Int32)
  | forget (entity : Int32)

namespace EntityCall

def bound? : EntityCall → Option Int32
  | bind entity => some entity
  | _ => none

/-- The entity that the last of the calls to bind a player was about. -/
def lastBound? (calls : List EntityCall) : Option Int32 := (calls.filterMap bound?).getLast?

theorem lastBound?_cons (k : EntityCall) (calls : List EntityCall) :
    lastBound? (k :: calls) = (lastBound? calls).or k.bound? := by
  unfold lastBound?
  rw [List.filterMap_cons]
  cases k.bound? with
  | none => simp
  | some entity =>
    rw [List.getLast?_cons]
    cases (calls.filterMap bound?).getLast? <;> rfl

end EntityCall

namespace SessionContext

/-- The number that a call returns, if it does, and what it leaves. -/
def call (c : SessionContext) : EntityCall → Option RuntimeId × SessionContext
  | .allocate => (some c.allocateRuntimeId.1, c.allocateRuntimeId.2)
  | .bind entity => (none, c.bindPlayer entity)
  | .map entity => (some (c.mapEntity entity).1, (c.mapEntity entity).2)
  | .forget entity => c.forgetEntity entity

/-- Whether a call takes a new number. -/
def allocates (c : SessionContext) : EntityCall → Bool
  | .allocate => true
  | .map entity => (c.runtimeId? entity).isNone
  | _ => false

def afterCalls (c : SessionContext) : List EntityCall → SessionContext
  | [] => c
  | k :: calls => (c.call k).2.afterCalls calls

/-- The numbers that the calls return. -/
def answers (c : SessionContext) : List EntityCall → List RuntimeId
  | [] => []
  | k :: calls => (c.call k).1.toList ++ (c.call k).2.answers calls

/-- How many new numbers the calls take. -/
def allocations (c : SessionContext) : List EntityCall → Nat
  | [] => 0
  | k :: calls => (c.allocates k).toNat + (c.call k).2.allocations calls

theorem entityCount_eq {c : SessionContext} (unique : c.entities.byBackend.keys.Nodup) :
    c.entityCount = {x | ∃ r, c.runtimeId? x = some r}.ncard := by
  have hset : {x | ∃ r, c.runtimeId? x = some r} = ↑c.entities.byBackend.keys.toFinset := by
    ext x
    rw [List.coe_toFinset]
    exact (Table.mem_keys_iff ..).symm
  rw [hset, Set.ncard_coe_finset, List.toFinset_card_of_nodup unique]
  exact (List.length_map _).symm

/-- There are as many entities with a number as numbers with an entity. -/
theorem Numbered.ncard_numbers {c : SessionContext} {n : Nat} (h : c.Numbered n) :
    {x | ∃ r, c.runtimeId? x = some r}.ncard = {r | ∃ x, c.runtimeId? x = some r}.ncard := by
  refine Set.ncard_congr (fun x hx => hx.choose) (fun x hx => ⟨x, hx.choose_spec⟩) ?_ ?_
  · intro x y hx hy heq
    exact h.distinct x y _ hx.choose_spec (heq ▸ hy.choose_spec)
  · intro r hr
    obtain ⟨x, hx⟩ := hr
    have hmapped : x ∈ {x | ∃ r, c.runtimeId? x = some r} := ⟨r, hx⟩
    exact ⟨x, hmapped, Option.some.inj (hmapped.choose_spec.symm.trans hx)⟩

/-- A session that has taken `n` numbers and returned some, and whose player is the one given. -/
structure Recalls (c : SessionContext) (given : List RuntimeId) (n : Nat) (player : Option Int32) : Prop where
  numbered : c.Numbered n
  player : c.entities.player = player
  low : ∀ x r, c.runtimeId? x = some r → r ≠ .player → 2 ≤ r.value.toNat
  given : ∀ r ∈ given, r.value.toNat < n + 2
  unique : c.entities.byBackend.keys.Nodup

namespace Recalls

variable {c : SessionContext} {given : List RuntimeId} {n : Nat} {player : Option Int32}

theorem start (id : SessionId) : ({ id } : SessionContext).Recalls [] 0 none :=
  ⟨.start rfl rfl, rfl, nofun, nofun, List.nodup_nil⟩

/-- The number of an entity is one that has been taken. -/
theorem value_lt (h : c.Recalls given n player) {x : Int32} {r : RuntimeId} (hx : c.runtimeId? x = some r) :
    r.value.toNat < n + 2 := by
  by_cases hr : r = .player
  · rw [hr]
    exact Nat.lt_of_lt_of_le Nat.one_lt_two (Nat.le_add_left 2 n)
  · exact h.numbered.old x r hx hr

theorem given_concat (h : c.Recalls given n player) {r : RuntimeId} {k : Nat} (hr : r.value.toNat < n + k + 2) :
    ∀ s ∈ given ++ [r], s.value.toNat < n + k + 2 := by
  intro s hs
  rcases List.mem_append.mp hs with hs | hs
  · have := h.given s hs
    omega
  · rwa [List.mem_singleton.mp hs]

theorem allocate (h : c.Recalls given n player) (room : n + 2 < UInt64.size) :
    c.allocateRuntimeId.2.Recalls (given ++ [c.allocateRuntimeId.1]) (n + 1) player := by
  have hnext : c.allocateRuntimeId.2.nextRuntimeId = UInt64.ofNat (n + 1 + 2) := by
    change c.nextRuntimeId + 1 = _
    rw [h.numbered.next]
    exact (UInt64.ofNat_add (n + 2) 1).symm
  have hvalue : c.nextRuntimeId.toNat < n + 1 + 2 := by
    rw [h.numbered.next_toNat room]
    exact Nat.lt_succ_self _
  exact ⟨⟨hnext, h.numbered.player, fun x r hx hr => Nat.lt_succ_of_lt (h.numbered.old x r hx hr),
    h.numbered.distinct⟩, h.player, h.low, h.given_concat hvalue, h.unique⟩

theorem bind (h : c.Recalls given n player) (entity : Int32) :
    (c.bindPlayer entity).Recalls given n (some entity) := by
  refine ⟨h.numbered.bindPlayer entity, rfl, fun x r hx hr => ?_, h.given, ?_⟩
  · rw [runtimeId?_bindPlayer] at hx
    split at hx
    · exact absurd (Option.some.inj hx).symm hr
    · split at hx
      · cases hx
      · exact h.low x r hx hr
  · change (Table.insert _ _ _).keys.Nodup
    apply Table.nodup_keys_insert
    split
    · exact Table.nodup_keys_erase h.unique _
    · exact h.unique

theorem map_known (h : c.Recalls given n player) {entity : Int32} {r : RuntimeId}
    (known : c.runtimeId? entity = some r) :
    (c.mapEntity entity).2.Recalls (given ++ [(c.mapEntity entity).1]) n player := by
  rw [mapEntity_of_known _ _ known]
  exact ⟨h.numbered, h.player, h.low, h.given_concat (k := 0) (h.value_lt known), h.unique⟩

theorem map_unknown (h : c.Recalls given n player) (room : n + 2 < UInt64.size) {entity : Int32}
    (unknown : c.runtimeId? entity = none) :
    (c.mapEntity entity).2.Recalls (given ++ [(c.mapEntity entity).1]) (n + 1) player := by
  obtain ⟨hnumbered, hget⟩ := h.numbered.handOut room unknown
  have hnext := h.numbered.next_toNat room
  refine ⟨hnumbered, ?_, fun x r hx hr => ?_, h.given_concat ?_, ?_⟩
  · rw [mapEntity_of_unknown _ _ unknown]
    exact h.player
  · rw [hget] at hx
    split at hx
    · rw [← Option.some.inj hx]
      exact hnext ▸ Nat.le_add_left 2 n
    · exact h.low x r hx hr
  · rw [mapEntity_of_unknown _ _ unknown]
    exact hnext ▸ Nat.lt_succ_self _
  · rw [mapEntity_of_unknown _ _ unknown]
    exact Table.nodup_keys_insert h.unique _ _

theorem forget (h : c.Recalls given n player) (entity : Int32) :
    (c.forgetEntity entity).2.Recalls (given ++ (c.forgetEntity entity).1.toList) n player := by
  by_cases hplayer : c.entities.player = some entity
  · rw [forgetEntity_of_player _ _ hplayer]
    exact (List.append_nil given).symm ▸ h
  · obtain ⟨hnumbered, hget⟩ := h.numbered.takeBack hplayer
    rw [forgetEntity_of_other _ _ hplayer] at hnumbered hget ⊢
    refine ⟨hnumbered, h.player, fun x r hx hr => ?_, ?_, Table.nodup_keys_erase h.unique _⟩
    · rw [hget] at hx
      split at hx
      · cases hx
      · exact h.low x r hx hr
    · cases hr : c.runtimeId? entity with
      | none => exact (List.append_nil given).symm ▸ h.given
      | some r => exact h.given_concat (k := 0) (h.value_lt hr)

theorem call (h : c.Recalls given n player) (k : EntityCall)
    (room : n + (c.allocates k).toNat + 2 ≤ UInt64.size) :
    (c.call k).2.Recalls (given ++ (c.call k).1.toList) (n + (c.allocates k).toNat)
      (k.bound?.or player) := by
  cases k with
  | allocate => exact h.allocate room
  | bind entity => exact (List.append_nil given).symm ▸ h.bind entity
  | forget entity => exact h.forget entity
  | map entity =>
    cases hentity : c.runtimeId? entity with
    | some r =>
      have hold : c.allocates (.map entity) = false := by rw [allocates, hentity]; rfl
      rw [hold]
      exact h.map_known hentity
    | none =>
      have hnew : c.allocates (.map entity) = true := by rw [allocates, hentity]; rfl
      rw [hnew] at room ⊢
      exact h.map_unknown room hentity

theorem afterCalls (h : c.Recalls given n player) (calls : List EntityCall)
    (room : n + c.allocations calls + 2 ≤ UInt64.size) :
    (c.afterCalls calls).Recalls (given ++ c.answers calls) (n + c.allocations calls)
      ((EntityCall.lastBound? calls).or player) := by
  induction calls generalizing c given n player with
  | nil => exact (List.append_nil given).symm ▸ h
  | cons k calls ih =>
    rw [allocations] at room
    have hnext := h.call k (by omega)
    have hrest := ih hnext (by omega)
    rwa [List.append_assoc, Nat.add_assoc, ← Option.or_assoc, ← EntityCall.lastBound?_cons] at hrest

end Recalls

/-- Of the numbers that the calls on a new session leave with entities, each is the number of one entity. The
player's is that of the entity bound last, and the others lie between it and the next one to be taken. An
entity that has none, be it forgotten or never seen, would get one that no call has returned. -/
theorem identifies (id : SessionId) (calls : List EntityCall)
    (few : ({ id } : SessionContext).allocations calls < UInt64.size - 2) :
    let c := ({ id } : SessionContext).afterCalls calls
    (∀ x y r, c.runtimeId? x = some r → c.runtimeId? y = some r → x = y) ∧
    (∀ x, c.runtimeId? x = some .player ↔ EntityCall.lastBound? calls = some x) ∧
    (∀ x r, c.runtimeId? x = some r → r ≠ .player → 2 ≤ r.value ∧ r.value < c.nextRuntimeId) ∧
    (∀ x, c.runtimeId? x = none → (c.mapEntity x).1 ∉ ({ id } : SessionContext).answers calls) ∧
    c.entityCount = {x | ∃ r, c.runtimeId? x = some r}.ncard ∧
    c.entityCount = {r | ∃ x, c.runtimeId? x = some r}.ncard := by
  intro c
  generalize hn : ({ id } : SessionContext).allocations calls = n at few
  have hrecalls : c.Recalls (({ id } : SessionContext).answers calls) n (EntityCall.lastBound? calls) := by
    have hafter := (Recalls.start id).afterCalls calls (by omega)
    rwa [List.nil_append, Nat.zero_add, Option.or_none, hn] at hafter
  have hnumbered := hrecalls.numbered
  have hnext : c.nextRuntimeId.toNat = n + 2 := hnumbered.next_toNat (by omega)
  have hcount := entityCount_eq hrecalls.unique
  refine ⟨hnumbered.distinct, fun x => ?_, fun x r hx hr => ⟨?_, ?_⟩, fun x hx hgiven => ?_, hcount, ?_⟩
  · rw [← hrecalls.player]
    exact hnumbered.player x
  · exact UInt64.le_iff_toNat_le.mpr (hrecalls.low x r hx hr)
  · rw [UInt64.lt_iff_toNat_lt, hnext]
    exact hnumbered.old x r hx hr
  · rw [mapEntity_of_unknown _ _ hx] at hgiven
    have hlt := hrecalls.given _ hgiven
    exact Nat.lt_irrefl _ (hnext ▸ hlt)
  · rw [hcount, hnumbered.ncard_numbers]

/-- A player who is bound twice, and an entity that is forgotten and comes back. -/
theorem identifies_of_rebound :
    let calls : List EntityCall := [.map 5, .bind 5, .map 7, .allocate, .bind 9, .forget 7, .map 5]
    let c := ({ id := ⟨1⟩ } : SessionContext).afterCalls calls
    ({ id := ⟨1⟩ } : SessionContext).allocations calls < UInt64.size - 2 ∧
      c.entities.byBackend = [(9, .player), (5, ⟨5⟩)] ∧ c.entityCount = 2 ∧
      (∀ x, c.runtimeId? x = some .player ↔ x = 9) ∧
      ({ id := ⟨1⟩ } : SessionContext).answers calls = [⟨2⟩, ⟨3⟩, ⟨4⟩, ⟨3⟩, ⟨5⟩] ∧
      (c.mapEntity 7).1 ∉ ({ id := ⟨1⟩ } : SessionContext).answers calls := by
  intro calls c
  have few : ({ id := ⟨1⟩ } : SessionContext).allocations calls < UInt64.size - 2 := by decide
  obtain ⟨-, hplayer, -, hfresh, -⟩ := identifies ⟨1⟩ calls few
  have hlast : EntityCall.lastBound? calls = some 9 := rfl
  refine ⟨few, rfl, rfl, fun x => ?_, rfl, hfresh 7 rfl⟩
  rw [hplayer, hlast, Option.some.injEq, eq_comm]

end SessionContext
end EditionGateway
