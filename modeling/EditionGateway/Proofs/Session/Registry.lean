import EditionGateway.Session.Registry

/-!
How registering and releasing change which sessions are in a registry.
-/

namespace EditionGateway.Registry

/-- The session of an id is in the registry. -/
def holds (r : Registry) (id : SessionId) : Bool := r.sessions.contains id

/-- A session is added under its own id, which was free, or nothing changes but the counters. -/
theorem register_cases (r : Registry) (h : SessionHandle) :
    (r.holds h.id = false ∧ r.register h =
      (.ok ⟨h.id, r.registered, false⟩, { r with
        sessions := r.sessions.insert h.id ⟨h, r.registered⟩
        registered := r.registered + 1 })) ∨
    ∃ e, (e = .shuttingDown ∨ e = .alreadyRegistered h.id ∧ r.holds h.id = true) ∧
      r.register h = (.error e, { r with rejected := r.rejected + 1 }) := by
  unfold register
  split
  · exact .inr ⟨_, .inl rfl, rfl⟩
  · split
    · next hc => exact .inr ⟨_, .inr ⟨rfl, hc⟩, rfl⟩
    · next hc => exact .inl ⟨Bool.eq_false_iff.mpr hc, rfl⟩

/-- Afterwards no session has this id, and nothing else about the registry has changed but a
counter. -/
theorem deregister_sessions (r : Registry) (id : SessionId) :
    (r.deregister id).2.sessions = r.sessions.erase id := by
  unfold deregister
  split
  · rfl
  · next hc =>
    rw [Table.contains_iff] at hc
    refine (List.filter_eq_self.mpr fun e he => ?_).symm
    have hne : e.1 ≠ id := fun h => hc (List.mem_map.mpr ⟨e, he, h⟩)
    simpa using hne

/-- From when it shuts down a registry takes no session. -/
theorem register_of_shuttingDown {r : Registry} (hr : r.shuttingDown = true) (h : SessionHandle) :
    r.register h = (.error .shuttingDown, { r with rejected := r.rejected + 1 }) := by
  rw [register, if_pos hr]

theorem register_shuttingDown (r : Registry) (h : SessionHandle) :
    (r.register h).2.shuttingDown = r.shuttingDown := by
  rcases r.register_cases h with ⟨-, heq⟩ | ⟨e, -, heq⟩ <;> rw [heq]

/-- No session goes when another one comes. -/
theorem register_isEmpty {r : Registry} (hr : r.isEmpty = false) (h : SessionHandle) :
    (r.register h).2.isEmpty = false := by
  rcases r.register_cases h with ⟨-, heq⟩ | ⟨e, -, heq⟩ <;> rw [heq]
  · simp [isEmpty, Table.insert]
  · exact hr

theorem deregister_shuttingDown (r : Registry) (id : SessionId) :
    (r.deregister id).2.shuttingDown = r.shuttingDown := by
  unfold deregister
  split <;> rfl

/-- Where nothing is taken out, nothing changes. -/
theorem deregister_of_not_mem {r : Registry} {id : SessionId} (h : (r.deregister id).1 = false) :
    (r.deregister id).2 = r := by
  unfold deregister at h ⊢
  split at h
  · cases h
  · next hc => rw [if_neg hc]

/-- From a registry without sessions nothing is taken out. -/
theorem deregister_of_isEmpty {r : Registry} (hr : r.isEmpty = true) (id : SessionId) :
    r.deregister id = (false, r) := by
  rw [deregister, List.isEmpty_iff.mp hr]
  rfl

end EditionGateway.Registry
