import EditionGateway.Gateway.Server
import EditionGateway.Proofs.Gateway.Chronicle

/-!
Whatever a gateway does by itself is made of moves, so what holds however the moves come holds of every
run of it.
-/

namespace EditionGateway

namespace Session

theorem next?_of_nextAct {s : Session} (h : Host.nextAct s = none) (lane : Lane) :
    s.next? lane = none := by
  have hl := List.findSome?_eq_none_iff.mp h lane (by cases lane <;> simp)
  simpa using hl

theorem queues_of_nextAct {s : Session} (h : Host.nextAct s = none) :
    s.todo = [] ∧ s.upward = [] ∧ s.downward = [] ∧ s.notices = [] := by
  have hmain := next?_of_nextAct h .main
  have hup := next?_of_nextAct h .toBackend
  have hdown := next?_of_nextAct h .toClient
  have hnotices := next?_of_nextAct h .commands
  simp only [next?, List.head?_eq_none_iff, Option.map_eq_none_iff] at *
  exact ⟨hmain, hup, hdown, hnotices⟩

end Session

namespace Host

variable {σ : Type}

/-- A place where a session looks for what has happened gives nothing but what it waits for, and
changes nothing but the network and the mailboxes. -/
def IsSource (s : Session) (f : Host σ → Option Event × Host σ) : Prop :=
  ∀ h, (∃ network switchboard, (f h).2 = { h with network, switchboard }) ∧
    ∀ e, (f h).1 = some e → s.awaits e ∧ e.isDone = false

section

variable {s : Session}

theorem isSource_shutdown (hs : s.awaits .shutdown) :
    IsSource s fun h : Host σ => h.pollShutdown := by
  refine fun h => ⟨⟨h.network, h.switchboard, rfl⟩, fun e he => ?_⟩
  simp only [pollShutdown] at he
  split at he
  · obtain rfl := Option.some.inj he
    exact ⟨hs, rfl⟩
  · cases he

theorem isSource_time {seat : Seat} (hs : s.awaits .timeUp) :
    IsSource s fun h : Host σ => h.pollTime seat := by
  refine fun h => ⟨⟨h.network, h.switchboard, rfl⟩, fun e he => ?_⟩
  simp only [pollTime] at he
  split at he
  · obtain rfl := Option.some.inj he
    exact ⟨hs, rfl⟩
  · cases he

theorem isSource_command {seat : Seat} (hs : ∀ k, s.awaits (.command k)) :
    IsSource s fun h : Host σ => h.pollCommand seat := by
  intro h
  simp only [pollCommand]
  split
  · refine ⟨⟨h.network, _, rfl⟩, fun e he => ?_⟩
    obtain rfl := Option.some.inj he
    exact ⟨hs _, rfl⟩
  · refine ⟨⟨h.network, h.switchboard, rfl⟩, fun e he => ?_⟩
    cases he

variable [Network σ]

theorem isSource_client (hs : ∀ r, s.awaits (.client r)) (id : SessionId) :
    IsSource s fun h : Host σ => h.pollClient id := by
  refine fun h => ⟨⟨_, h.switchboard, rfl⟩, fun e he => ?_⟩
  obtain ⟨got, -, rfl⟩ := Option.map_eq_some_iff.mp he
  cases got <;> exact ⟨hs _, rfl⟩

theorem isSource_backend (hs : ∀ r, s.awaits (.backend r)) (id : SessionId) :
    IsSource s fun h : Host σ => h.pollBackend id := by
  refine fun h => ⟨⟨_, h.switchboard, rfl⟩, fun e he => ?_⟩
  obtain ⟨got, -, rfl⟩ := Option.map_eq_some_iff.mp he
  cases got <;> exact ⟨hs _, rfl⟩

theorem isSource_connect (hs : ∀ r, s.awaits (.connected r)) (id : SessionId) :
    IsSource s fun h : Host σ => h.pollConnect id := by
  refine fun h => ⟨⟨_, h.switchboard, rfl⟩, fun e he => ?_⟩
  obtain ⟨r, -, rfl⟩ := Option.map_eq_some_iff.mp he
  exact ⟨hs r, rfl⟩

/-- A session with nothing to do looks only for what it waits for. -/
theorem isSource_of_mem {seat : Seat} (hn : nextAct seat.session = none) (id : SessionId)
    {f : Host σ → Option Event × Host σ} (hf : f ∈ sources id seat) : IsSource seat.session f := by
  obtain ⟨ht, hu, hd, hnotices⟩ := Session.queues_of_nextAct hn
  unfold sources at hf
  split at hf
  · next hs =>
    simp only [List.mem_cons, List.not_mem_nil, or_false] at hf
    rcases hf with rfl | rfl | rfl
    · exact isSource_shutdown (by simp [Session.awaits, hs, ht])
    · exact isSource_client (by simp [Session.awaits, hs, ht]) id
    · exact isSource_time (by simp [Session.awaits, hs])
  · next hs =>
    simp only [List.mem_cons, List.not_mem_nil, or_false] at hf
    rcases hf with rfl | rfl | rfl | rfl
    · exact isSource_shutdown (by simp [Session.awaits, hs, ht])
    · exact isSource_connect (by simp [Session.awaits, hs, ht]) id
    · exact isSource_time (by simp [Session.awaits, hs, ht])
    · exact isSource_client (by simp [Session.awaits, hs, ht]) id
  · next hs =>
    simp only [List.mem_cons, List.not_mem_nil, or_false] at hf
    rcases hf with rfl | rfl | rfl | rfl | rfl
    · exact isSource_shutdown (by simp [Session.awaits, hs])
    · exact isSource_command (by simp [Session.awaits, hs, hnotices])
    · exact isSource_client (by simp [Session.awaits, hs, hu]) id
    · exact isSource_backend (by simp [Session.awaits, hs, hd]) id
    · exact isSource_time (by simp [Session.awaits, hs, hu])
  · cases hf

end

theorem isSource_firstEvent {s : Session} {fs : List (Host σ → Option Event × Host σ)}
    (hf : ∀ f ∈ fs, IsSource s f) : IsSource s fun h => h.firstEvent fs := by
  induction fs with
  | nil =>
    refine fun h => ⟨⟨h.network, h.switchboard, rfl⟩, fun e he => ?_⟩
    cases he
  | cons f fs ih =>
    intro h
    obtain ⟨⟨network, switchboard, hk⟩, he⟩ := hf f List.mem_cons_self h
    simp only [firstEvent]
    split
    · next e k heq =>
      rw [heq] at hk he
      exact ⟨⟨network, switchboard, hk⟩, fun e' he' => he e' he'⟩
    · next k heq =>
      rw [heq] at hk
      obtain rfl := hk
      exact ih (fun f hf' => hf f (List.mem_cons_of_mem _ hf')) _

/-- A gateway comes to another state by moves, with this many new sessions. -/
def Reaches [Network σ] (h k : Host σ) (count : Nat) : Prop :=
  ∀ notes, ∃ ms : List (Move σ), ms.countP (·.isWelcome) = count ∧
    (Chronicle.after ⟨h, notes⟩ ms).host = k

namespace Reaches

variable [Network σ] {h k l : Host σ}

theorem refl (h : Host σ) : Reaches h h 0 := fun _ => ⟨[], rfl, rfl⟩

theorem trans {m n : Nat} (hk : Reaches h k m) (hl : Reaches k l n) : Reaches h l (m + n) := by
  intro notes
  obtain ⟨ms, hm, hms⟩ := hk notes
  obtain ⟨ns, hn, hns⟩ := hl (Chronicle.after ⟨h, notes⟩ ms).notes
  refine ⟨ms ++ ns, by rw [List.countP_append, hm, hn], ?_⟩
  rw [Chronicle.after_append]
  rwa [← hms] at hns

theorem trans_zero {n : Nat} (hk : Reaches h k 0) (hl : Reaches k l n) : Reaches h l n := by
  have ht := hk.trans hl
  rwa [Nat.zero_add] at ht

theorem change (h : Host σ) (network : σ) (switchboard : Switchboard)
    (status : Option BackendStatus) (now : Nat) :
    Reaches h { h with
      network, switchboard, now, registry := { h.registry with status } } 0 :=
  fun _ => ⟨[.change network switchboard status now], rfl, rfl⟩

end Reaches

variable [Network σ] {h : Host σ}

theorem reaches_network (h : Host σ) (network : σ) (switchboard : Switchboard) :
    Reaches h { h with network, switchboard } 0 :=
  .change h network switchboard h.registry.status h.now

theorem reaches_welcome (h : Host σ) (address : Address) : Reaches h (h.welcome address).2 1 :=
  fun _ => ⟨[.welcome address], rfl, rfl⟩

theorem reaches_shutdown (h : Host σ) :
    Reaches h { h with registry := h.registry.beginShutdown } 0 :=
  fun _ => ⟨[.beginShutdown], rfl, rfl⟩

theorem reaches_perform {id : SessionId} {seat : Seat} (hs : h.seats.get? id = some seat)
    {lane : Lane} {a : Act} (ha : seat.session.next? lane = some a) :
    Reaches h ((h.perform id seat a).2.handle id seat (.done lane (h.perform id seat a).1)) 0 := by
  refine fun notes => ⟨[.perform id lane], rfl, ?_⟩
  simp only [Chronicle.after, List.foldl_cons, List.foldl_nil, Chronicle.next, hs, ha]
  rfl

theorem reaches_tell {id : SessionId} {seat : Seat} (hs : h.seats.get? id = some seat) {e : Event}
    (he : seat.session.awaits e ∧ e.isDone = false) : Reaches h (h.handle id seat e) 0 := by
  refine fun notes => ⟨[.tell id e], rfl, ?_⟩
  simp only [Chronicle.after, List.foldl_cons, List.foldl_nil, Chronicle.next, hs]
  rw [if_pos ⟨he.1, Bool.eq_false_iff.mp he.2⟩]
  rfl

/-- A step of a session is made of moves. -/
theorem reaches_step {id : SessionId} {seat : Seat} (hs : h.seats.get? id = some seat) :
    Reaches h (h.step id seat).2 0 := by
  unfold step
  split
  · next lane a hn =>
    obtain ⟨lane', -, hl⟩ := List.exists_of_findSome?_eq_some hn
    obtain ⟨a', ha, hl⟩ := Option.map_eq_some_iff.mp hl
    obtain ⟨rfl, rfl⟩ := Prod.mk.inj hl
    -- The links are released at the end, which no session notices.
    apply (reaches_perform hs ha).trans_zero
    dsimp only
    split
    · exact reaches_network _ _ _
    · exact .refl _
  · next hn =>
    have hf := isSource_firstEvent (fun f hf => isSource_of_mem hn id hf) h
    obtain ⟨⟨network, switchboard, hk⟩, he⟩ := hf
    dsimp only at hk he
    split
    · next e k heq =>
      rw [heq] at hk he
      obtain rfl := hk
      apply (reaches_network h network switchboard).trans_zero
      exact reaches_tell (h := { h with network, switchboard }) hs (he e rfl)
    · next k heq =>
      rw [heq] at hk
      obtain rfl := hk
      exact reaches_network h network switchboard

theorem reaches_runSession (id : SessionId) (fuel : Nat) (h : Host σ) :
    Reaches h (runSession id fuel h).2 0 := by
  induction fuel generalizing h with
  | zero => exact .refl h
  | succ fuel ih =>
    unfold runSession
    split
    · exact .refl h
    · next seat hs =>
      have hstep := reaches_step hs
      split
      · next k heq =>
        rw [heq] at hstep
        exact hstep.trans_zero (ih k)
      · next k heq =>
        rw [heq] at hstep
        exact hstep

theorem reaches_foldl {f : Bool × Host σ → SessionId → Bool × Host σ}
    (hf : ∀ s id, Reaches s.2 (f s id).2 0) (ids : List SessionId) (s : Bool × Host σ) :
    Reaches s.2 (ids.foldl f s).2 0 := by
  induction ids generalizing s with
  | nil => exact .refl s.2
  | cons id ids ih => exact (hf s id).trans_zero (ih _)

theorem reaches_run (fuel : Nat) (h : Host σ) : Reaches h (h.run fuel).2 0 := by
  unfold run
  refine reaches_foldl ?_ _ (false, h)
  exact fun s id => reaches_runSession id fuel s.2

/-- However long the sessions of a gateway run, in turn or not, they get on by moves. -/
theorem reaches_settle (fuel : Nat) (h : Host σ) : Reaches h (h.settle fuel) 0 := by
  induction fuel generalizing h with
  | zero => exact .refl h
  | succ fuel ih =>
    unfold settle
    have hrun := reaches_run (fuel + 1) h
    split
    · next k heq =>
      rw [heq] at hrun
      exact hrun.trans_zero (ih k)
    · next k heq =>
      rw [heq] at hrun
      exact hrun

end Host

namespace Server

theorem reaches_acceptOne {s t : Server} (h : s.acceptOne = some t) : s.host.Reaches t.host 1 := by
  unfold acceptOne at h
  split at h
  · cases h
  · split at h
    · obtain rfl := Option.some.inj h
      exact (s.host.reaches_welcome _).trans (Host.reaches_network _ _ _)
    · cases h

theorem reaches_refreshOne {s t : Server} (h : s.refreshOne = some t) : s.host.Reaches t.host 0 := by
  unfold refreshOne at h
  obtain ⟨r, -, rfl⟩ := Option.map_eq_some_iff.mp h
  split
  · unfold Registry.noteProbe
    split
    · exact .change s.host s.host.network s.host.switchboard _ s.host.now
    · exact .refl _
  · exact .refl _

/-- A gateway that does all it can welcomes some clients, and all else about its sessions is made of
moves. -/
theorem reaches_settle (fuel : Nat) (s : Server) :
    ∃ count, s.host.Reaches (s.settle fuel).host count := by
  induction fuel generalizing s with
  | zero => exact ⟨0, .refl _⟩
  | succ fuel ih =>
    unfold settle
    split
    · next t ht =>
      obtain ⟨count, hc⟩ := ih t
      exact ⟨1 + count, (reaches_acceptOne ht).trans hc⟩
    · split
      · next t ht =>
        obtain ⟨count, hc⟩ := ih t
        exact ⟨count, (reaches_refreshOne ht).trans_zero hc⟩
      · exact ⟨0, Host.reaches_settle (fuel + 1) s.host⟩

theorem reaches_shutdown (s : Server) : ∃ count, s.host.Reaches s.shutdown.host count := by
  have hbegin := s.host.reaches_shutdown
  obtain ⟨count, hc⟩ := reaches_settle stepLimit
    { s with host := { s.host with registry := s.host.registry.beginShutdown } }
  exact ⟨count, (hbegin.trans_zero hc).trans (n := 0) (Host.reaches_network _ _ _)⟩

end Server
end EditionGateway
