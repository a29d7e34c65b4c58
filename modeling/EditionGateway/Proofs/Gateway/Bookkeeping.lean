import EditionGateway.Proofs.Gateway.Chronicle
import EditionGateway.Proofs.Session.Membership
import EditionGateway.Proofs.Session.Registry

/-!
What is done for a session, and what that changes about the registry: only registering and
deregistering change anything, and only for that session.
-/

namespace EditionGateway

/-- What an act can change, by its outcome: whether the session is in the registry, and the
registration it holds. -/
inductive Effect (id : SessionId) :
    Bool → Bool → Act → Except GatewayError Unit → Option Registration → Option Registration → Prop
  | plain (b : Bool) (a : Act) (r : Except GatewayError Unit) (g : Option Registration)
      (hr : a.kind ≠ .register) (hd : a.kind ≠ .deregister) : Effect id b b a r g g
  | registered (u : String) (ticket : UInt64) (g : Option Registration) :
      Effect id false true (.register u) (.ok ()) g (some ⟨id, ticket, false⟩)
  | refused (b : Bool) (u : String) (e : GatewayError) (g : Option Registration)
      (he : e = .shuttingDown ∨ b = true) : Effect id b b (.register u) (.error e) g g
  | unheld (b : Bool) : Effect id b b .deregister (.ok ()) none none
  | spent (b : Bool) (g : Registration) (hg : g.released = true) :
      Effect id b b .deregister (.ok ()) (some g) (some g)
  | released (b : Bool) (g : Registration) (hg : g.released = false) :
      Effect id b false .deregister (.ok ()) (some g) (some { g with released := true })

namespace Host

variable {σ : Type}

/-- What is left alone when something is done for a session. -/
structure Keeps (h k : Host σ) (id : SessionId) : Prop where
  config : k.config = h.config
  converters : k.converters = h.converters
  nextSession : k.nextSession = h.nextSession
  now : k.now = h.now
  keys : k.seats.keys = h.seats.keys
  seats : ∀ j, j ≠ id → k.seats.get? j = h.seats.get? j
  holds : ∀ j, j ≠ id → k.registry.holds j = h.registry.holds j
  nodup : h.registry.sessions.keys.Nodup → k.registry.sessions.keys.Nodup

theorem Keeps.refl (h : Host σ) (id : SessionId) : Keeps h h id :=
  ⟨rfl, rfl, rfl, rfl, rfl, fun _ _ => rfl, fun _ _ => rfl, fun hn => hn⟩

/-- Only the seat and the entry of one session are affected by what has been done for it. -/
def Affected (h : Host σ) (id : SessionId) (seat : Seat) (a : Act)
    (done : Except GatewayError Unit × Host σ) : Prop :=
  Keeps h done.2 id ∧ ∃ registration, done.2.seats.get? id = some { seat with registration } ∧
    Effect id (h.registry.holds id) (done.2.registry.holds id) a done.1 seat.registration registration

theorem affected_plain {h : Host σ} {id : SessionId} {seat : Seat} (hs : h.seats.get? id = some seat)
    {a : Act} (hr : a.kind ≠ .register) (hd : a.kind ≠ .deregister)
    (r : Except GatewayError Unit) (network : σ) (switchboard : Switchboard) :
    Affected h id seat a (r, { h with network, switchboard }) :=
  ⟨⟨rfl, rfl, rfl, rfl, rfl, fun _ _ => rfl, fun _ _ => rfl, fun hn => hn⟩, seat.registration, hs,
    .plain _ a r _ hr hd⟩

/-- A seat gets another registration, and the session of this id is put in or taken out. -/
theorem keeps_registry {h : Host σ} {id : SessionId} {registry : Registry} (g : Registration)
    (hh : ∀ j, j ≠ id → registry.holds j = h.registry.holds j)
    (hn : h.registry.sessions.keys.Nodup → registry.sessions.keys.Nodup) :
    Keeps h { h with
      registry
      seats := h.seats.modify id fun seat => { seat with registration := some g } } id where
  config := rfl
  converters := rfl
  nextSession := rfl
  now := rfl
  keys := by simp [Table.keys_modify]
  seats j hj := by simp [Table.get?_modify, hj]
  holds := hh
  nodup := hn

variable [Network σ]

theorem affected_register {h : Host σ} {id : SessionId} {seat : Seat}
    (hs : h.seats.get? id = some seat) (u : String) :
    Affected h id seat (.register u) (h.perform id seat (.register u)) := by
  let handle : SessionHandle := ⟨id, u, seat.address, seat.channel⟩
  -- The registry takes the session, or refuses it and counts that.
  rcases h.registry.register_cases handle with ⟨hfree, heq⟩ | ⟨e, he, heq⟩
  · have hp : h.perform id seat (.register u) = (.ok (), { h with
        registry := { h.registry with
          sessions := h.registry.sessions.insert id ⟨handle, h.registry.registered⟩
          registered := h.registry.registered + 1 }
        seats := h.seats.modify id fun seat =>
          { seat with registration := some ⟨id, h.registry.registered, false⟩ } }) := by
      simp only [perform, heq, handle]
    rw [hp]
    refine ⟨keeps_registry _ ?_ fun hn => Table.nodup_keys_insert hn _ _,
      some ⟨id, h.registry.registered, false⟩, ?_, ?_⟩
    · intro j hj
      simp [Registry.holds, Table.contains_insert, hj]
    · simp [Table.get?_modify, hs]
    · have hnow : Registry.holds { h.registry with
          sessions := h.registry.sessions.insert id ⟨handle, h.registry.registered⟩
          registered := h.registry.registered + 1 } id = true := by
        simp [Registry.holds, Table.contains_insert]
      rw [show h.registry.holds id = false from hfree, hnow]
      exact .registered u _ _
  · obtain ⟨e', he', hp⟩ : ∃ e', (e' = .shuttingDown ∨ h.registry.holds id = true) ∧
        h.perform id seat (.register u) = (.error e',
          { h with registry := { h.registry with rejected := h.registry.rejected + 1 } }) := by
      rcases he with rfl | ⟨rfl, hheld⟩
      · refine ⟨.shuttingDown, .inl rfl, ?_⟩
        simp only [perform, heq, handle]
      · refine ⟨.session (.alreadyRegistered id), .inr hheld, ?_⟩
        simp only [perform, heq, handle]
    rw [hp]
    exact ⟨⟨rfl, rfl, rfl, rfl, rfl, fun _ _ => rfl, fun _ _ => rfl, fun hn => hn⟩,
      seat.registration, hs, .refused _ u e' _ he'⟩

theorem affected_deregister {h : Host σ} {id : SessionId} {seat : Seat}
    (hs : h.seats.get? id = some seat) (hg : ∀ g, seat.registration = some g → g.id = id) :
    Affected h id seat .deregister (h.perform id seat .deregister) := by
  cases hreg : seat.registration with
  | none =>
    have hp : h.perform id seat .deregister = (.ok (), h) := by simp only [perform, hreg]
    rw [hp]
    refine ⟨.refl h id, none, ?_, ?_⟩
    · rw [hs, ← hreg]
    · rw [hreg]
      exact .unheld _
  | some g =>
    obtain rfl := hg g hreg
    -- A registration that has been given back once is not given back again.
    cases hrel : g.released with
    | true =>
      have hp : h.perform g.id seat .deregister = (.ok (), { h with
          registry := h.registry
          seats := h.seats.modify g.id fun seat => { seat with registration := some g } }) := by
        simp only [perform, hreg, Registry.release, hrel, if_true]
      rw [hp]
      refine ⟨keeps_registry g (fun _ _ => rfl) fun hn => hn, some g, ?_, ?_⟩
      · simp [Table.get?_modify, hs]
      · rw [hreg]
        exact .spent _ g hrel
    | false =>
      have hp : h.perform g.id seat .deregister = (.ok (), { h with
          registry := (h.registry.deregister g.id).2
          seats := h.seats.modify g.id fun seat =>
            { seat with registration := some { g with released := true } } }) := by
        simp [perform, hreg, Registry.release, hrel]
      rw [hp]
      have hsessions := h.registry.deregister_sessions g.id
      refine ⟨keeps_registry _ ?_ ?_, some { g with released := true }, ?_, ?_⟩
      · intro j hj
        simp [Registry.holds, hsessions, Table.contains_erase, hj]
      · intro hn
        rw [hsessions]
        exact Table.nodup_keys_erase hn _
      · simp [Table.get?_modify, hs]
      · have hnow : (h.registry.deregister g.id).2.holds g.id = false := by
          simp [Registry.holds, hsessions, Table.contains_erase]
        rw [hreg]
        simp only [hnow]
        exact .released _ g hrel

/-- Doing something for a session affects no other one. -/
theorem perform_affected {h : Host σ} {id : SessionId} {seat : Seat}
    (hs : h.seats.get? id = some seat) (hg : ∀ g, seat.registration = some g → g.id = id) (a : Act) :
    Affected h id seat a (h.perform id seat a) := by
  by_cases hr : a.kind = .register
  · cases a with
    | register u => exact affected_register hs u
    | _ => cases hr
  · by_cases hd : a.kind = .deregister
    · cases a with
      | deregister => exact affected_deregister hs hg
      | _ => cases hd
    · obtain ⟨network, switchboard, hp⟩ := h.perform_host id seat hr hd
      have ha := affected_plain hs hr hd (h.perform id seat a).1 network switchboard
      rwa [← hp] at ha

end Host
end EditionGateway
