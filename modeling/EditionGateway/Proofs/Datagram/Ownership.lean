import EditionGateway.Proofs.Datagram.History

/-!
What a connection takes with it when it is closed or given up. An address is owned by the connection
that has been opened there last, so a connection gives up nothing but its own, as long as no later one
from its address exists. `newer_owner_lost` shows that it is not so otherwise.
-/

namespace EditionGateway
namespace Datagram
namespace Endpoint

/-- Every address that is owned is so by the last connection opened there, which is not closed. At most
`count` connections have been opened. -/
structure Owned (e : Endpoint) (count : Nat) : Prop where
  nextId : e.nextId.toNat ≤ count + 1
  fresh : ∀ id a, e.home id = some a → id.value.toNat < e.nextId.toNat
  owner : ∀ a id, e.owner a = some id → e.home id = some a ∧ e.isOpen id = true
  newest : ∀ a id, e.owner a = some id → ∀ j, e.home j = some a → j.value ≤ id.value

namespace Owned

variable {e d : Endpoint} {count : Nat}

theorem listen (guid : UInt64) (mtu : UInt16) (z : Compression) : (Endpoint.listen guid mtu z).Owned 0 :=
  ⟨Nat.le_refl 1, nofun, nofun, nofun⟩

theorem fades (h : e.Owned count) (hf : e.Fades d) : d.Owned (count + 1) := by
  refine ⟨?_, fun id a hid => ?_, fun a id ha => ?_, fun a id ha j hj => ?_⟩
  · rw [hf.nextId]
    exact Nat.le_succ_of_le h.nextId
  · rw [hf.nextId]
    exact h.fresh id a (hf.home ▸ hid)
  · rw [hf.home, hf.isOpen]
    exact h.owner a id (hf.owner a id ha)
  · exact h.newest a id (hf.owner a id ha) j (hf.home ▸ hj)

theorem nextId_succ (h : e.Owned count) (few : count + 2 < UInt64.size)
    (nextId : d.nextId = e.nextId + 1) : d.nextId.toNat = e.nextId.toNat + 1 := by
  have hle := h.nextId
  have hone : (1 : UInt64).toNat = 1 := rfl
  have hsize : UInt64.size = 18446744073709551616 := rfl
  rw [nextId, UInt64.toNat_add, hone]
  exact Nat.mod_eq_of_lt (by omega)

/-- What a new connection owns has belonged to nobody, and it is later than all that exist. -/
theorem opened (h : e.Owned count) (few : count + 2 < UInt64.size) {a : Address}
    (nextId : d.nextId = e.nextId + 1)
    (owner : ∀ b, d.owner b = if b = a then some ⟨e.nextId⟩ else e.owner b)
    (home : ∀ j, d.home j = if j = ⟨e.nextId⟩ then some a else e.home j)
    (isOpen : ∀ j, d.isOpen j = if j = ⟨e.nextId⟩ then true else e.isOpen j) :
    d.Owned (count + 1) := by
  have hle := h.nextId
  have hnext : d.nextId.toNat = e.nextId.toNat + 1 := h.nextId_succ few nextId
  have hne {id : ConnectionId} {b : Address} (hid : e.home id = some b) : id ≠ ⟨e.nextId⟩ := by
    rintro rfl
    exact Nat.lt_irrefl _ (h.fresh _ b hid)
  refine ⟨by omega, fun id b hid => ?_, fun b id hb => ?_, fun b id hb j hj => ?_⟩
  · rw [home] at hid
    split at hid
    · next heq =>
      subst heq
      exact hnext ▸ Nat.lt_succ_self _
    · exact hnext ▸ Nat.lt_succ_of_lt (h.fresh id b hid)
  · rw [owner] at hb
    split at hb
    · next heq =>
      obtain rfl := Option.some.inj hb
      rw [home, isOpen, if_pos rfl, if_pos rfl, heq]
      exact ⟨rfl, rfl⟩
    · obtain ⟨hid, hopen⟩ := h.owner b id hb
      rw [home, isOpen, if_neg (hne hid), if_neg (hne hid)]
      exact ⟨hid, hopen⟩
  · rw [owner] at hb
    rw [home] at hj
    split at hb
    · obtain rfl := Option.some.inj hb
      split at hj
      · next heq => exact heq ▸ Nat.le_refl _
      · exact Nat.le_of_lt (h.fresh j b hj)
    · next hba =>
      split at hj
      · exact absurd (Option.some.inj hj).symm hba
      · exact h.newest b id hb j hj

/-- A connection whose address is forgotten may go. -/
theorem gone (h : e.Owned count) {id : ConnectionId} {a : Address} (known : e.home id = some a)
    (nextId : d.nextId = e.nextId) (owner : ∀ b, d.owner b = if b = a then none else e.owner b)
    (home : ∀ j b, d.home j = some b → e.home j = some b)
    (others : ∀ j, j ≠ id → d.home j = e.home j ∧ d.isOpen j = e.isOpen j) :
    d.Owned (count + 1) := by
  have hkept {b : Address} {j : ConnectionId} (hb : d.owner b = some j) :
      e.owner b = some j ∧ j ≠ id := by
    rw [owner] at hb
    split at hb
    · cases hb
    · next hba =>
      refine ⟨hb, ?_⟩
      rintro rfl
      exact hba (Option.some.inj ((h.owner b j hb).1.symm.trans known))
  refine ⟨?_, fun j b hj => ?_, fun b j hb => ?_, fun b j hb k hk => ?_⟩
  · rw [nextId]
    exact Nat.le_succ_of_le h.nextId
  · rw [nextId]
    exact h.fresh j b (home j b hj)
  · obtain ⟨hb, hne⟩ := hkept hb
    rw [(others j hne).1, (others j hne).2]
    exact h.owner b j hb
  · exact h.newest b j (hkept hb).1 k (home k b hk)

theorem change (h : e.Owned count) (few : count + 2 < UInt64.size) (hc : e.Change d) :
    d.Owned (count + 1) := by
  cases hc with
  | fades hf => exact h.fades hf
  | opened a nextId free owner home isOpen => exact h.opened few nextId owner home isOpen
  | closed id a known nextId owner home isOpen =>
    refine h.gone known nextId owner (fun j b hj => home ▸ hj) fun j hj => ?_
    rw [home, isOpen, if_neg hj]
    exact ⟨rfl, rfl⟩
  | dropped id a known nextId owner home isOpen =>
    refine h.gone known nextId owner (fun j b hj => ?_) fun j hj => ?_
    · rw [home] at hj
      split at hj
      · cases hj
      · exact hj
    · rw [home, isOpen, if_neg hj, if_neg hj]
      exact ⟨rfl, rfl⟩

theorem after (h : e.Owned count) (is : List Incident)
    (few : count + is.length + 1 < UInt64.size) : (e.after is).Owned (count + is.length) := by
  induction is generalizing e count with
  | nil => exact h
  | cons i is ih =>
    rw [List.length_cons] at few ⊢
    have hi : (e.next i).Owned (count + 1) := h.change (by omega) (e.change_next i)
    have := ih hi (by omega)
    rwa [Nat.add_right_comm] at this

variable {id : ConnectionId} {a : Address}

/-- The last connection from an address is the only one that can own it. -/
theorem owner_of_latest (h : e.Owned count) (hid : e.home id = some a)
    (latest : ∀ j, e.home j = some a → j.value ≤ id.value) {j : ConnectionId}
    (hj : e.owner a = some j) : j = id := by
  have hle : j.value ≤ id.value := latest j (h.owner a j hj).1
  have hge : id.value ≤ j.value := h.newest a j hj id hid
  have heq : j.value = id.value := UInt64.le_antisymm hle hge
  cases j
  cases id
  exact congrArg ConnectionId.mk heq

/-- To forget the address of such a connection is to forget what it owns. -/
theorem erase_own (h : e.Owned count) (hid : e.home id = some a)
    (latest : ∀ j, e.home j = some a → j.value ≤ id.value) (b : Address) :
    (e.peers.erase a).get? b = (e.peers.get? b).filter (·.connection ≠ id) := by
  rw [Table.get?_erase]
  cases hp : e.peers.get? b with
  | none => simp
  | some p =>
    have howner : e.owner b = some p.connection := by rw [Endpoint.owner, hp]; rfl
    split
    · next hba =>
      have hown : p.connection = id := h.owner_of_latest hid latest (hba ▸ howner)
      simp [Option.filter, hown]
    · next hba =>
      have hother : p.connection ≠ id := by
        rintro rfl
        exact hba (Option.some.inj ((h.owner b _ howner).1.symm.trans hid))
      simp [Option.filter, hother]

/-- A connection that is closed owns nothing. -/
theorem filter_closed (h : e.Owned count) (hclosed : e.isOpen id = false) (b : Address) :
    (e.peers.get? b).filter (·.connection ≠ id) = e.peers.get? b := by
  cases hp : e.peers.get? b with
  | none => rfl
  | some p =>
    have howner : e.owner b = some p.connection := by rw [Endpoint.owner, hp]; rfl
    have hother : p.connection ≠ id := by
      rintro rfl
      have hopen := (h.owner b _ howner).2
      exact Bool.false_ne_true (hclosed.symm.trans hopen)
    simp [Option.filter, hother]

end Owned

/-- What a connection does to the others when it is closed or given up: it forgets the peer that it
owns, and none else, and it takes its leave of that peer only. -/
structure GivesUpOwn (e : Endpoint) (id : ConnectionId) (a : Address) : Prop where
  close_peers : ∀ b, (e.close id).2.peers.get? b = (e.peers.get? b).filter (·.connection ≠ id)
  close_says : (e.close id).1 = if e.owner a = some id then some disconnect else none
  drop_peers : ∀ b, (e.drop id).peers.get? b = (e.peers.get? b).filter (·.connection ≠ id)
  connections : ∀ j, j ≠ id → (e.close id).2.connections.get? j = e.connections.get? j ∧
    (e.drop id).connections.get? j = e.connections.get? j

theorem connections_of_ne (e : Endpoint) {id j : ConnectionId} (hj : j ≠ id) :
    (e.close id).2.connections.get? j = e.connections.get? j ∧
      (e.drop id).connections.get? j = e.connections.get? j := by
  constructor
  · unfold close
    split
    · rfl
    · split
      · rfl
      · simp only [Table.get?_modify, if_neg hj]
  · unfold drop
    split
    · rfl
    · simp only [Table.get?_erase, if_neg hj]

/-- A connection leaves the others alone, as long as no later one from its address exists. -/
theorem gives_up_own (guid : UInt64) (mtu : UInt16) (z : Compression) (is : List Incident)
    (few : is.length + 1 < UInt64.size) :
    let e := (listen guid mtu z).after is
    ∀ id a, e.home id = some a → (∀ j, e.home j = some a → j.value ≤ id.value) →
      e.GivesUpOwn id a := by
  intro e id a hid latest
  have h : e.Owned (0 + is.length) := (Owned.listen guid mtu z).after is (by omega)
  clear_value e
  obtain ⟨c, hc, rfl⟩ : ∃ c, e.connections.get? id = some c ∧ c.address = a :=
    Option.map_eq_some_iff.mp hid
  have herase := h.erase_own hid latest
  refine ⟨fun b => ?_, ?_, fun b => ?_, fun j hj => e.connections_of_ne hj⟩
  · simp only [close, hc]
    split
    · next hclosed => exact (h.filter_closed (by simp [isOpen, hc, hclosed]) b).symm
    · exact herase b
  · simp only [close, hc]
    split
    · next hclosed =>
      refine (if_neg fun ho => ?_).symm
      have hopen := (h.owner _ id ho).2
      simp [isOpen, hc, hclosed] at hopen
    · have hcontains : e.peers.contains c.address = (e.owner c.address).isSome := by
        rw [Table.contains, Endpoint.owner, Option.isSome_map]
      rw [hcontains]
      cases ho : e.owner c.address with
      | none => rfl
      | some j => rw [h.owner_of_latest hid latest ho, if_pos rfl]; rfl
  · simp only [drop, hc]
    exact herase b

/-- A client that has come back to its address and now leaves for good, while its first connection still
exists. Another client stays. -/
theorem gives_up_own_of_second :
    let is := [knock "a", .accept, leave "a", knock "a", knock "b"]
    let e := (listen 0 defaultMtu).after is
    is.length + 1 < UInt64.size ∧ e.home ⟨1⟩ = some "a" ∧ e.home ⟨2⟩ = some "a" ∧
      e.owner "a" = some ⟨2⟩ ∧ e.GivesUpOwn ⟨2⟩ "a" ∧ (e.close ⟨2⟩).2.owner "a" = none ∧
      (e.close ⟨2⟩).2.owner "b" = some ⟨3⟩ := by
  intro is e
  have few : is.length + 1 < UInt64.size := by decide
  refine ⟨few, by decide, by decide, by decide, ?_, by decide, by decide⟩
  refine gives_up_own 0 defaultMtu .bare is few ⟨2⟩ "a" (by decide) fun j hj => ?_
  have hkeys : e.connections.keys = [⟨1⟩, ⟨2⟩, ⟨3⟩] := by decide
  have hmem : j ∈ e.connections.keys := by
    obtain ⟨c, hc, -⟩ := Option.map_eq_some_iff.mp hj
    exact (Table.mem_keys_iff _ _).mpr ⟨c, hc⟩
  simp only [hkeys, List.mem_cons, List.not_mem_nil, or_false] at hmem
  rcases hmem with rfl | rfl | rfl
  · decide
  · decide
  · exact absurd hj (by decide)

/-- A client has come back to its address. Closing its first connection, or giving it up, takes the
second one from it, and tells it to go. -/
theorem newer_owner_lost :
    let e := (listen 0 defaultMtu).after [knock "a", .accept, leave "a", knock "a"]
    e.home ⟨1⟩ = some "a" ∧ e.owner "a" = some ⟨2⟩ ∧
      (e.close ⟨1⟩).1 = some disconnect ∧ (e.close ⟨1⟩).2.owner "a" = none ∧
      (e.drop ⟨1⟩).owner "a" = none := by
  decide

end Endpoint
end Datagram
end EditionGateway
