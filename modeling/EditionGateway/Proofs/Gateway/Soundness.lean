import EditionGateway.Proofs.Conversion.Outputs
import EditionGateway.Proofs.Gateway.Bookkeeping

/-!
What holds of every session of a gateway, whatever happens to the gateway: it has got on by itself, and
its registration and its entry in the registry are what the notes about it say.
-/

namespace EditionGateway

open Notes

/-- The registration of a session and its entry in the registry are what the notes say. -/
inductive Held (id : SessionId) (b : Bool) (g : Option Registration) (n : Notes) : Prop
  | absent (hn : inserted n = 0) (hg : g = none)
  | present (ticket : UInt64) (hn : 0 < inserted n)
      (hg : g = some ⟨id, ticket, decide (0 < removed n)⟩) (hb : b = decide (removed n = 0))

namespace Held

variable {id : SessionId} {b b' : Bool} {g g' : Option Registration} {n m : Notes}

theorem owner (h : Held id b g n) : ∀ r, g = some r → r.id = id := by
  rintro r rfl
  cases h with
  | absent hn hg => cases hg
  | present ticket hn hg hb =>
    rw [Option.some.inj hg]

/-- Other notes change nothing. -/
theorem append (h : Held id b g n) (hi : inserted m = 0) (hr : removed m = 0) :
    Held id b g (n ++ m) := by
  cases h with
  | absent hn hg => exact .absent (by rw [inserted_append, hn, hi]) hg
  | present ticket hn hg hb =>
    refine .present ticket ?_ ?_ ?_
    · rwa [inserted_append, hi]
    · rwa [removed_append, hr]
    · rwa [removed_append, hr]

/-- What an act changes is noted with it. -/
theorem did (h : Held id b g n) {lane : Lane} {a : Act} {r : Except GatewayError Unit}
    (he : Effect id b b' a r g g')
    (hf : ∀ u, a = .register u → inserted n = 0 ∧ removed n = 0) :
    Held id b' g' (n ++ [.did lane a r]) := by
  cases he with
  | plain _ _ _ _ hr hd =>
    refine h.append ?_ ?_
    · cases a <;> first | rfl | exact absurd rfl hr
    · cases a <;> first | rfl | exact absurd rfl hd
  | registered u ticket =>
    obtain ⟨hi, hz⟩ := hf u rfl
    have hi' : inserted (n ++ [.did lane (.register u) (.ok ())]) = 1 := by
      rw [inserted_append, hi]
      rfl
    have hz' : removed (n ++ [.did lane (.register u) (.ok ())]) = 0 := by
      rw [removed_append, hz]
      rfl
    exact .present ticket (by omega) (by rw [hz']; rfl) (by rw [hz']; rfl)
  | refused u e hfull => exact h.append rfl rfl
  | unheld =>
    cases h with
    | absent hn hg => exact .absent (by rw [inserted_append, hn]; rfl) rfl
    | present ticket hn hg hb => cases hg
  | spent _ g hg =>
    cases h with
    | absent hn hg' => cases hg'
    | present ticket hn hg' hb =>
      obtain rfl := Option.some.inj hg'
      have hz : 0 < removed n := of_decide_eq_true hg
      have hz' : 0 < removed (n ++ [.did lane .deregister (.ok ())]) := by
        rw [removed_append]
        omega
      refine .present ticket ?_ ?_ ?_
      · rw [inserted_append]
        omega
      · rw [decide_eq_true hz, decide_eq_true hz']
      · rw [hb, decide_eq_false (Nat.ne_of_gt hz), decide_eq_false (Nat.ne_of_gt hz')]
  | released _ g hg =>
    cases h with
    | absent hn hg' => cases hg'
    | present ticket hn hg' hb =>
      obtain rfl := Option.some.inj hg'
      have hz' : 0 < removed (n ++ [.did lane .deregister (.ok ())]) := by
        rw [removed_append]
        exact Nat.lt_add_left _ Nat.zero_lt_one
      refine .present ticket ?_ ?_ ?_
      · rw [inserted_append]
        omega
      · rw [decide_eq_true hz']
      · rw [decide_eq_false (Nat.ne_of_gt hz')]

end Held

namespace Chronicle

variable {σ : Type}

/-- What holds of a gateway with this configuration and these tables, and of all its sessions. -/
structure Sound (config : GatewayConfig) (mappings : Mappings) (c : Chronicle σ) : Prop where
  config_eq : c.host.config = config
  converters_eq : c.host.converters = .standard mappings
  course : ∀ id seat, c.host.seats.get? id = some seat → ∃ now es,
    c.course id seat = (Course.start config (.standard mappings) id now).after es
  held : ∀ id seat, c.host.seats.get? id = some seat →
    Held id (c.host.registry.holds id) seat.registration (c.notes id)

namespace Sound

variable {config : GatewayConfig} {mappings : Mappings} {c : Chronicle σ}

theorem start (config : GatewayConfig) (mappings : Mappings) (network : σ) :
    Sound config mappings (.start config mappings network) where
  config_eq := rfl
  converters_eq := rfl
  course := by simp [Chronicle.start]
  held := by simp [Chronicle.start]

theorem member (h : Sound config mappings c) {id : SessionId} {seat : Seat}
    (hs : c.host.seats.get? id = some seat) : (c.course id seat).Member := by
  obtain ⟨now, es, he⟩ := h.course id seat hs
  rw [he]
  exact Course.member_after config (Converters.standard_discreet mappings) id now es

theorem welcome (h : Sound config mappings c) (address : Address) :
    Sound config mappings (c.welcome address) where
  config_eq := h.config_eq
  converters_eq := h.converters_eq
  course id seat hs := by
    simp only [Chronicle.welcome, Host.welcome, Table.get?_insert] at hs
    by_cases hid : id = ⟨c.host.nextSession⟩
    · rw [if_pos hid] at hs
      obtain rfl := Option.some.inj hs
      refine ⟨c.host.now, [], ?_⟩
      simp [Chronicle.course, Chronicle.welcome, Host.welcome, hid, Course.start, h.config_eq, h.converters_eq]
    · rw [if_neg hid] at hs
      simpa [Chronicle.course, Chronicle.welcome, Host.welcome, hid] using h.course id seat hs
  held id seat hs := by
    simp only [Chronicle.welcome, Host.welcome, Table.get?_insert] at hs
    by_cases hid : id = ⟨c.host.nextSession⟩
    · rw [if_pos hid] at hs
      obtain rfl := Option.some.inj hs
      exact .absent (by simp [Chronicle.welcome, Host.welcome, hid, inserted]) rfl
    · rw [if_neg hid] at hs
      simpa [Chronicle.welcome, Host.welcome, hid] using h.held id seat hs

/-- Everything but the one session that is told something stays as it is. -/
theorem hear (h : Sound config mappings c) {k : Host σ} {id : SessionId} {seat : Seat} {e : Event}
    (hk : c.host.Keeps k id) (hs : c.host.seats.get? id = some seat)
    {registration : Option Registration} (hs' : k.seats.get? id = some { seat with registration })
    (ha : seat.session.admits e)
    (hheld : Held id (k.registry.holds id) registration ((c.course id seat).next k.now e).notes) :
    Sound config mappings (({ c with host := k } : Chronicle σ).hear id seat e) where
  config_eq := hk.config.trans h.config_eq
  converters_eq := hk.converters.trans h.converters_eq
  course j seat' hj := by
    simp only [Chronicle.hear, Host.handle, Table.get?_modify] at hj
    by_cases hid : j = id
    · subst hid
      rw [if_pos rfl, hs'] at hj
      obtain rfl := Option.some.inj hj
      obtain ⟨now, es, he⟩ := h.course j seat hs
      refine ⟨now, es ++ [(k.now, e)], ?_⟩
      -- Its course goes on with this event.
      rw [Course.after_append, ← he]
      simp [Chronicle.course, Chronicle.hear, Course.after, Course.next, ha]
    · rw [if_neg hid, hk.seats j hid] at hj
      simpa [Chronicle.course, Chronicle.hear, hid] using h.course j seat' hj
  held j seat' hj := by
    simp only [Chronicle.hear, Host.handle, Table.get?_modify] at hj
    by_cases hid : j = id
    · subst hid
      rw [if_pos rfl, hs'] at hj
      obtain rfl := Option.some.inj hj
      simpa [Chronicle.course, Chronicle.hear, Host.handle] using hheld
    · rw [if_neg hid, hk.seats j hid] at hj
      simpa [Chronicle.hear, Host.handle, hid, hk.holds j hid] using h.held j seat' hj

theorem tell (h : Sound config mappings c) {id : SessionId} {seat : Seat} {e : Event}
    (hs : c.host.seats.get? id = some seat) (ha : seat.session.awaits e) (hd : e.isDone = false) :
    Sound config mappings (c.hear id seat e) := by
  have hadmits : seat.session.admits e := by
    cases e <;> first | exact ha | cases hd
  apply h.hear (.refl c.host id) hs hs hadmits
  rw [Course.next_notes hadmits]
  refine Held.append ?_ (inserted_shown _ _) (removed_shown _ _)
  refine (h.held id seat hs).append ?_ ?_
  · cases e <;> first | rfl | cases hd
  · cases e <;> first | rfl | cases hd

variable [Network σ]

theorem perform (h : Sound config mappings c) {id : SessionId} {seat : Seat} {lane : Lane} {a : Act}
    (hs : c.host.seats.get? id = some seat) (ha : seat.session.next? lane = some a) :
    Sound config mappings (c.perform id seat lane a) := by
  obtain ⟨hk, registration, hs', he⟩ := Host.perform_affected hs (h.held id seat hs).owner a
  have hresult := c.host.perform_result id seat a
  unfold Chronicle.perform
  generalize c.host.perform id seat a = done at hk hs' he hresult ⊢
  obtain ⟨r, k⟩ := done
  have hadmits := Session.admits_of_result ha hresult
  have hnoted := Session.noted_done ha r
  apply h.hear hk hs hs' hadmits
  rw [Course.next_notes hadmits, course_session, course_notes, hnoted]
  refine Held.append ?_ (inserted_shown _ _) (removed_shown _ _)
  -- A session that is about to register has not been in the registry.
  refine (h.held id seat hs).did he fun u hu => (h.member hs).fresh lane u ?_
  rw [← hu]
  exact ha

theorem next (h : Sound config mappings c) (m : Move σ) : Sound config mappings (c.next m) := by
  cases m with
  | welcome address => exact h.welcome address
  | perform id lane =>
    simp only [Chronicle.next]
    split
    · exact h
    · next seat hs =>
      split
      · exact h
      · next a ha => exact h.perform hs ha
  | tell id e =>
    simp only [Chronicle.next]
    split
    · exact h
    · next seat hs =>
      split
      · next hif => exact h.tell hs hif.1 (Bool.eq_false_iff.mpr hif.2)
      · exact h
  | beginShutdown => exact ⟨h.config_eq, h.converters_eq, h.course, h.held⟩
  | change network switchboard status now =>
    exact ⟨h.config_eq, h.converters_eq, h.course, h.held⟩

end Sound

/-- Whatever happens to a gateway, its sessions get on by themselves and the registry is in order. -/
theorem sound_after [Network σ] (config : GatewayConfig) (mappings : Mappings) (network : σ)
    (ms : List (Move σ)) : Sound config mappings ((start config mappings network).after ms) := by
  have hrun (c : Chronicle σ) (h : Sound config mappings c) : Sound config mappings (c.after ms) := by
    induction ms generalizing c with
    | nil => exact h
    | cons m ms ih => exact ih _ (h.next m)
  exact hrun _ (.start config mappings network)

end Chronicle
end EditionGateway
