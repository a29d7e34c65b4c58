import EditionGateway.Gateway.InProcess
import EditionGateway.Proofs.Gateway.Soundness

/-!
How sessions end. Every session that has begun to end comes to its end by itself, and whichever way it
has ended, it has had one teardown.
-/

namespace EditionGateway

open Notes

namespace Chronicle

variable {σ : Type} {config : GatewayConfig} {mappings : Mappings} {c : Chronicle σ}
  {id : SessionId} {seat : Seat} {e : GatewayError}

/-- A session that has begun to end is in its teardown. -/
theorem Sound.closing (h : Sound config mappings c) (hs : c.host.seats.get? id = some seat)
    (he : seat.session.stage = .ending e) : (c.course id seat).Closing e := by
  obtain ⟨now, es, hc⟩ := h.course id seat hs
  have ho := Course.orderly_after config (Converters.standard_discreet mappings) id now es
  rw [← hc] at ho
  exact ho.closing he

variable [Network σ]

/-- A teardown does not wait for anything. -/
theorem Sound.perform_ending (h : Sound config mappings c) (hs : c.host.seats.get? id = some seat)
    (he : seat.session.stage = .ending e) {a : Act} {rest : List Act}
    (ht : seat.session.todo = a :: rest) :
    ∃ seat', (c.next (.perform id .main)).host.seats.get? id = some seat' ∧
      seat'.session.stage = .ending e ∧ seat'.session.todo = rest := by
  have hclosing := h.closing hs he
  have hn : seat.session.next? .main = some a := Session.next?_main ht
  have hnext : c.next (.perform id .main) = c.perform id seat .main a := by
    simp only [Chronicle.next, hs, hn]
  have hkind := Session.mem_teardown (hclosing.mem_teardown hn)
  obtain ⟨hk, registration, hs', -⟩ := Host.perform_affected hs (h.held id seat hs).owner a
  -- Whether or not the act succeeds, the next one follows.
  have hresult := c.host.perform_result id seat a
  rw [hnext]
  unfold Chronicle.perform
  generalize c.host.perform id seat a = done at hk hs' hresult ⊢
  obtain ⟨r, k⟩ := done
  have hdone := hclosing.ending.handle_done ht (by rintro x rfl; simp at hkind)
    (by rintro x rfl; simp at hkind) hresult k.now
  refine ⟨{ seat with registration, session := seat.session.handle k.now (.done .main r) }, ?_, ?_⟩
  · simp only [Chronicle.hear, Host.handle, Table.get?_modify, if_true]
    rw [hs']
    rfl
  · rw [course_session] at hdone
    simp only [hdone]
    exact ⟨he, trivial⟩

/-- When a session has begun to end, it only takes its own acts to end it. -/
theorem Sound.ends (h : Sound config mappings c) (hs : c.host.seats.get? id = some seat)
    (he : seat.session.stage = .ending e) :
    ∃ seat', (c.after (List.replicate seat.session.todo.length (.perform id .main))).host.seats.get? id =
      some seat' ∧ seat'.session.ending? = some e := by
  generalize htodo : seat.session.todo = todo
  induction todo generalizing c seat with
  | nil => exact ⟨seat, hs, Session.ending?_eq_some.mpr ⟨he, htodo⟩⟩
  | cons a rest ih =>
    obtain ⟨seat', hs', he', ht'⟩ := h.perform_ending hs he htodo
    exact ih (h.next _) hs' he' ht'

/-- Whatever a session ends for, and in whichever state: once it has begun to end, it comes to its
end without anything else having to happen, and then there has been one teardown. A session that was
registered is then no longer in the registry. -/
theorem single_teardown (config : GatewayConfig) (mappings : Mappings) (network : σ)
    (ms : List (Move σ)) (id : SessionId) (seat : Seat) (e : GatewayError)
    (hs : ((start config mappings network).after ms).host.seats.get? id = some seat) :
    let c := (start config mappings network).after ms
    (seat.session.stage = .ending e → ∃ seat',
      (c.after (List.replicate seat.session.todo.length (.perform id .main))).host.seats.get? id =
        some seat' ∧ seat'.session.ending? = some e) ∧
    (seat.session.ending? = some e → Concluded (c.notes id) e ∧
      (Registered (c.notes id) → c.host.registry.sessions.contains id = false)) := by
  intro c
  have hc : Sound config mappings c := sound_after config mappings network ms
  refine ⟨hc.ends hs, fun he => ?_⟩
  obtain ⟨hstage, htodo⟩ := Session.ending?_eq_some.mp he
  have hconcluded : Concluded (c.notes id) e := (hc.closing hs hstage).concluded htodo
  refine ⟨hconcluded, fun hr => ?_⟩
  have hremoved : removed (c.notes id) = 1 := hconcluded.registry.2.mpr hr
  cases hc.held id seat hs with
  | absent hn hg =>
    have hi := (registered_iff_inserted _).mp hr
    omega
  | present ticket hn hg hb =>
    exact hb.trans (decide_eq_false (by omega))

/-- A session that is established and registered has one teardown when the gateway shuts down. -/
theorem single_teardown_registered :
    let es := Course.welcomed ++ [.done .main (.ok ()), .done .main (.ok ()), .shutdown] ++
      List.replicate 7 (.done .main (.ok ()))
    let c := (start {} {} ({} : InProcess)).after (.welcome "127.0.0.1:1" :: Move.through ⟨1⟩ es)
    ∃ seat, c.host.seats.get? ⟨1⟩ = some seat ∧ seat.session.ending? = some .shuttingDown ∧
      Concluded (c.notes ⟨1⟩) .shuttingDown :=
  ⟨_, rfl, rfl, ((single_teardown {} {} _ _ ⟨1⟩ _ .shuttingDown rfl).2 rfl).1⟩

end Chronicle
end EditionGateway
