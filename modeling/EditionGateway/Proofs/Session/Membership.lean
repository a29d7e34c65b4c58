import EditionGateway.Proofs.Session.Teardown

/-!
When a session is in the registry, by the notes about it: from the one time that it has registered
until the one time that it has been taken out, and only while it is established or closing.
-/

namespace EditionGateway

namespace Notes

def insertion : Note → Bool
  | .did _ (.register _) (.ok _) => true
  | _ => false

/-- How often the session has been put into the registry. -/
def inserted (n : Notes) : Nat := n.countP insertion

/-- How often the session has been taken out of the registry. -/
def removed (n : Notes) : Nat := count n .deregister

@[simp] theorem inserted_append (n m : Notes) : inserted (n ++ m) = inserted n + inserted m :=
  List.countP_append

@[simp] theorem removed_append (n m : Notes) : removed (n ++ m) = removed n + removed m :=
  count_append ..

theorem registered_iff_inserted (n : Notes) : Registered n ↔ 0 < inserted n := by
  rw [inserted, List.countP_pos_iff]
  constructor
  · rintro ⟨lane, u, hu⟩
    exact ⟨_, hu, rfl⟩
  · rintro ⟨x, hx, hi⟩
    unfold insertion at hi
    split at hi
    · exact ⟨_, _, hx⟩
    · cases hi

theorem inserted_le (n : Notes) : inserted n ≤ count n .register := by
  induction n with
  | nil => exact Nat.le_refl 0
  | cons x n ih =>
    have hx : inserted [x] ≤ count [x] .register := by
      cases x with
      | did lane a r => cases a <;> cases r <;> first | exact Nat.le_refl _ | exact Nat.zero_le _
      | _ => exact Nat.le_refl 0
    have hi := inserted_append [x] n
    have hc := count_append [x] n .register
    rw [List.singleton_append] at hi hc
    omega

/-- What is shown of a session says nothing about the registry. -/
theorem inserted_shown (s t : Session) : inserted (s.shown t) = 0 := by
  unfold Session.shown
  split <;> rfl

theorem removed_shown (s t : Session) : removed (s.shown t) = 0 := Course.count_shown ..

end Notes

namespace Course

open Notes

theorem Closing.register_le {c : Course} {e : GatewayError} (h : c.Closing e) :
    count c.notes .register ≤ 1 := by
  obtain ⟨n, m, hn, he, hm⟩ := h.split
  have hz : count m .register = 0 := by
    refine List.countP_eq_zero.mpr fun a ha hk => ?_
    have hmem : a ∈ c.session.teardown e := by
      rw [← hm.planned]
      exact List.mem_append_left _ ha
    rcases Session.mem_teardown hmem with rfl | rfl | rfl | rfl | rfl | rfl | rfl <;> cases hk
  rw [hn, count_append, hz]
  exact he.once

theorem Closing.removed_le {c : Course} {e : GatewayError} (h : c.Closing e) :
    removed c.notes ≤ 1 := by
  obtain ⟨n, m, hn, he, hm⟩ := h.split
  have hc := Session.count_teardown_deregister c.session e
  have hle := Bool.toNat_le c.session.registered
  rw [← hm.planned, List.countP_append] at hc
  rw [removed, hn, count_append, he.count_eq_zero (by simp), count]
  omega

/-- Where a session is as long as it is in the registry. -/
theorem Closing.present {c : Course} {e : GatewayError} (h : c.Closing e)
    (hr : c.session.registered = true) (hz : removed c.notes = 0) :
    c.session.lifecycle = .established ∨ c.session.lifecycle = .closing := by
  obtain ⟨n, m, hn, he, hm⟩ := h.split
  have hdone : (acts m).countP (·.kind = .deregister) = 0 := by
    rw [removed, hn, count_append] at hz
    exact (Nat.add_eq_zero_iff.mp hz).2
  have htodo : c.session.todo ≠ [] := by
    intro ht
    have hc := Session.count_teardown_deregister c.session e
    rw [← hm.planned, ht, List.append_nil, hdone, hr] at hc
    cases hc
  -- As something is left to do, `closed` is still to be entered.
  have hclosed : .closed ∈ c.session.todo.filterMap Act.entered? := by
    refine List.mem_filterMap.mpr ⟨.enter .closed, List.mem_of_getLast? ?_, rfl⟩
    have hl := Session.getLast?_teardown c.session e
    rwa [← hm.planned, List.getLast?_append, List.getLast?_eq_some_getLast htodo,
      Option.some_or, ← List.getLast?_eq_some_getLast htodo] at hl
  rcases h.progress with ⟨-, -, hl⟩ | ⟨-, hl⟩ | hnone
  · exact .inl (hl hr)
  · exact .inr hl
  · rw [hnone] at hclosed
    cases hclosed

/-- A session tries to register once and is taken out of the registry once. In between it is
established or closing. -/
structure Member (c : Course) : Prop where
  register_le : count c.notes .register ≤ 1
  removed_le : removed c.notes ≤ 1
  present : removed c.notes < inserted c.notes →
    c.session.lifecycle = .established ∨ c.session.lifecycle = .closing
  fresh : ∀ lane u, c.session.next? lane = some (.register u) →
    inserted c.notes = 0 ∧ removed c.notes = 0

theorem Open.member {c : Course} (h : c.Open) : c.Member := by
  have hz : removed c.notes = 0 := h.early.count_eq_zero (by simp)
  refine ⟨h.early.once, by omega, fun hlt => .inl ?_, fun lane u hn => ?_⟩
  · have hr := h.early.registered_iff.mpr ((registered_iff_inserted _).mpr (by omega))
    exact Option.some.inj (h.last.symm.trans (h.early.settled hr))
  · have hcount : count c.notes .register = 0 := h.unregistered (h.underWay.unregistered hn)
    have hin := inserted_le c.notes
    omega

theorem Closing.member {c : Course} {e : GatewayError} (h : c.Closing e) : c.Member := by
  have honce := h.register_le
  refine ⟨honce, h.removed_le, fun hlt => ?_, fun lane u hn => ?_⟩
  · have hin := inserted_le c.notes
    have hr := h.notes_iff.2.mpr ((registered_iff_inserted _).mpr (by omega))
    exact h.present hr (by omega)
  · have hm := h.mem_teardown hn
    have hk := Session.mem_teardown hm
    simp at hk

theorem member_after (config : GatewayConfig) {t : Converters} (ht : t.Discreet) (id : SessionId)
    (now : Nat) (es : List (Nat × Event)) : ((start config t id now).after es).Member := by
  rcases (orderly_after config ht id now es).phase with ho | ⟨e, hc⟩
  · exact ho.member
  · exact hc.member

end Course
end EditionGateway
