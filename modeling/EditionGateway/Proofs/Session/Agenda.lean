import EditionGateway.Proofs.Conversion.Outputs
import EditionGateway.Proofs.Session.Course

/-!
What a session that has not begun to end still has to do, by its stage and its state. The main result
is that an event leaves a session with such an agenda, or makes it begin to end.
-/

namespace EditionGateway

/-- An act that changes neither the state nor the links, and is no farewell. -/
def Act.IsPlain : Act → Prop
  | .tell p => p.kind ≠ .disconnect
  | .compress _ | .ask _ => True
  | _ => False

namespace Session

/-! ### What an event can find -/

theorem admits_shutdown {s : Session} (h : s.admits .shutdown) :
    (s.stage = .handshake ∨ s.stage = .linking) ∧ s.todo = [] ∨ s.stage = .forwarding := by
  unfold admits awaits at h
  cases hs : s.stage <;> simp_all

theorem admits_client {s : Session} {r : Except GatewayError Client.Packet}
    (h : s.admits (.client r)) :
    (s.stage = .handshake ∨ s.stage = .linking) ∧ s.todo = [] ∨
      s.stage = .forwarding ∧ s.upward = [] := by
  unfold admits awaits at h
  cases hs : s.stage <;> simp_all

theorem admits_connected {s : Session} {r : Except BackendError Unit}
    (h : s.admits (.connected r)) : s.stage = .linking ∧ s.todo = [] := by
  simpa [admits, awaits] using h

theorem admits_backend {s : Session} {r : Except GatewayError Backend.Packet}
    (h : s.admits (.backend r)) : s.stage = .forwarding ∧ s.downward = [] := by
  simpa [admits, awaits] using h

theorem admits_command {s : Session} {k : SessionCommand} (h : s.admits (.command k)) :
    s.stage = .forwarding ∧ s.notices = [] := by
  simpa [admits, awaits] using h

theorem admits_timeUp {s : Session} (h : s.admits .timeUp) : ∀ e, s.stage ≠ .ending e := by
  intro e he
  simp [admits, awaits, he] at h

theorem admits_done {s : Session} {lane : Lane} {r : Except GatewayError Unit}
    (h : s.admits (.done lane r)) :
    ∃ a, s.next? lane = some a ∧ (r = .ok () ∨ a.canFail) := by
  cases r with
  | error e =>
    obtain ⟨a, ha, hf⟩ : ∃ a, s.next? lane = some a ∧ a.canFail = true := by
      simpa [admits, Option.any_eq_true] using h
    exact ⟨a, ha, .inr hf⟩
  | ok u =>
    obtain ⟨a, ha⟩ : ∃ a, s.next? lane = some a := by
      simpa [admits, awaits, Option.isSome_iff_exists] using h
    exact ⟨a, ha, .inl rfl⟩

/-! ### What a packet leaves alone -/

/-- What no packet changes about a session. -/
structure Fixture where
  settings : SessionConfig
  threshold : UInt16
  converters : Converters
  lifecycle : Lifecycle
  linked : Bool
  registered : Bool

def fixture (s : Session) : Fixture :=
  ⟨s.settings, s.threshold, s.converters, s.lifecycle, s.linked, s.registered⟩

@[simp] theorem fixture_fail (s : Session) (e : GatewayError) : (s.fail e).fixture = s.fixture := rfl

@[simp] theorem fixture_onGated (s : Session) (p : Client.Packet) :
    (s.onGated p).fixture = s.fixture := by
  unfold onGated
  split <;> rfl

@[simp] theorem fixture_offerPacks (s : Session) : s.offerPacks.fixture = s.fixture := by
  unfold offerPacks
  split <;> rfl

@[simp] theorem fixture_remember (s : Session) (c : Except SessionError SessionContext) :
    (s.remember c).fixture = s.fixture := by
  cases c with
  | ok c => exact fixture_offerPacks _
  | error e => rfl

@[simp] theorem fixture_onSettingsRequest (s : Session) (n : UInt32) :
    (s.onSettingsRequest n).fixture = s.fixture := by
  unfold onSettingsRequest
  split <;> rfl

@[simp] theorem fixture_onLogin (s : Session) (n : UInt32) (c : Credentials) :
    (s.onLogin n c).fixture = s.fixture := by
  unfold onLogin
  split
  · rfl
  · split
    · rfl
    · exact fixture_remember _ _

@[simp] theorem fixture_onClientData (s : Session) (t : String) :
    (s.onClientData t).fixture = s.fixture := by
  unfold onClientData
  split
  · rfl
  · exact fixture_remember _ _

@[simp] theorem fixture_onPackResponse (s : Session) (r : Client.PackResponse) :
    (s.onPackResponse r).fixture = s.fixture := by
  unfold onPackResponse
  split
  · rfl
  · split
    · rfl
    · split <;> rfl

@[simp] theorem fixture_onHandshake (s : Session) (p : Client.Packet) :
    (s.onHandshake p).fixture = s.fixture := by
  unfold onHandshake
  split <;> simp

@[simp] theorem fixture_awaitClient (s : Session) (now : Nat) :
    (s.awaitClient now).fixture = s.fixture := by
  unfold awaitClient
  split <;> rfl

@[simp] theorem fixture_opening (s : Session) : s.opening.fixture = s.fixture := rfl

@[simp] theorem fixture_onClientPacket (s : Session) (now : Nat) (p : Client.Packet) :
    (s.onClientPacket now p).fixture = s.fixture := by
  unfold onClientPacket
  split
  · rfl
  · exact fixture_awaitClient _ now

@[simp] theorem fixture_onBackendPacket (s : Session) (p : Backend.Packet) :
    (s.onBackendPacket p).fixture = s.fixture := by
  unfold onBackendPacket
  split <;> rfl

@[simp] theorem fixture_onCommand (s : Session) (k : SessionCommand) :
    (s.onCommand k).fixture = s.fixture := by
  cases k <;> rfl

@[simp] theorem fixture_settle (s : Session) (now : Nat) : (s.settle now).fixture = s.fixture := by
  unfold settle
  split
  · rfl
  · exact fixture_awaitClient _ now
  · rfl

@[simp] theorem fixture_onFailed (s : Session) (e : GatewayError) :
    (s.onFailed e).fixture = s.fixture := by
  unfold onFailed
  split <;> rfl

/-! ### What is left when something is done -/

theorem onDone_nil {s : Session} {now : Nat} (ht : s.todo = []) : s.onDone now = s := by
  simp [onDone, ht]

theorem onDone_enter {s : Session} {now : Nat} {l : Lifecycle} {r : List Act}
    (ht : s.todo = .enter l :: r) :
    s.onDone now = ({ s with todo := r, lifecycle := s.lifecycle.moveTo l } : Session).settle now := by
  simp [onDone, ht]

theorem onDone_connect {s : Session} {now : Nat} {c : Credentials} {r : List Act}
    (ht : s.todo = .connect c :: r) :
    s.onDone now = { s with
      todo := r, stage := .linking, deadline := now + s.settings.linkingTimeout.nanos } := by
  simp [onDone, ht]

theorem onDone_register {s : Session} {now : Nat} {u : String} {r : List Act}
    (ht : s.todo = .register u :: r) :
    s.onDone now =
      ({ s with todo := r, registered := true } : Session).opening.settle now := by
  simp [onDone, ht]

theorem onDone_of_isPlain {s : Session} {now : Nat} {a : Act} {r : List Act}
    (ht : s.todo = a :: r) (ha : a.IsPlain) :
    s.onDone now = ({ s with todo := r } : Session).settle now := by
  cases a <;> first | exact ha.elim | simp [onDone, ht]

/-! ### The agenda -/

/-- What is left after the plain acts, by the stage and the state. The flags say whether the link to
the backend is open and whether the session is registered. -/
inductive Agenda : Stage → Lifecycle → Bool → Bool → List Act → Prop
  | arriving : Agenda .handshake .connecting false false [.enter .awaitingAuth]
  | greeting : Agenda .handshake .awaitingAuth false false []
  | offering : Agenda .handshake .awaitingAuth false false [.enter .awaitingHandshakeAck]
  | offered : Agenda .handshake .awaitingHandshakeAck false false []
  | accepting (c : Credentials) : Agenda .handshake .awaitingHandshakeAck false false
      [.enter .linkingBackend, .connect c]
  | accepted (c : Credentials) : Agenda .handshake .linkingBackend false false [.connect c]
  | refusing (e : GatewayError) (l : Lifecycle) (hl : l < .established) :
      Agenda (.refusing e) l false false []
  | linking : Agenda .linking .linkingBackend false false []
  | linked (u : String) : Agenda .joining .linkingBackend true false
      [.enter .established, .register u]
  | joining (u : String) : Agenda .joining .established true false [.register u]
  | opening : Agenda .joining .established true true []
  | forwarding : Agenda .forwarding .established true true []

/-- What comes first of such an agenda, and what is left then. -/
theorem Agenda.head {stage : Stage} {life : Lifecycle} {linked registered : Bool} {a : Act}
    {r : List Act} (h : Agenda stage life linked registered (a :: r)) :
    (∃ l, a = .enter l ∧ Agenda stage (life.moveTo l) linked registered r) ∨
      (∃ c, a = .connect c ∧ Agenda .linking life linked registered r) ∨
      ∃ u, a = .register u ∧ r = [] ∧ Agenda stage life linked true [] := by
  cases h with
  | arriving => exact .inl ⟨_, rfl, .greeting⟩
  | offering => exact .inl ⟨_, rfl, .offered⟩
  | accepting c => exact .inl ⟨_, rfl, .accepted c⟩
  | accepted c => exact .inr (.inl ⟨_, rfl, .linking⟩)
  | linked u => exact .inl ⟨_, rfl, .joining u⟩
  | joining u => exact .inr (.inr ⟨_, rfl, rfl, .opening⟩)

/-- A session that has not begun to end. -/
structure UnderWay (s : Session) : Prop where
  agenda : ∃ ps tail, s.todo = ps ++ tail ∧ (∀ a ∈ ps, a.IsPlain) ∧
    Agenda s.stage s.lifecycle s.linked s.registered tail
  idle : s.stage = .forwarding → s.todo = []
  lanes : s.stage ≠ .forwarding → s.upward = [] ∧ s.downward = [] ∧ s.notices = []
  plain : ∀ p ∈ s.downward ++ s.notices, p.kind ≠ .disconnect

/-- A session that has begun to end because of `e` and does nothing but its teardown. -/
structure Ending (s : Session) (e : GatewayError) : Prop where
  stage : s.stage = .ending e
  upward : s.upward = []
  downward : s.downward = []
  notices : s.notices = []

/-- The session goes on, or it has just begun to end. -/
def GoesOn (s : Session) : Prop := s.UnderWay ∨ ∃ e, s.Ending e ∧ s.todo = s.teardown e

theorem goesOn_fail (s : Session) (e : GatewayError) : (s.fail e).GoesOn :=
  .inr ⟨e, ⟨rfl, rfl, rfl, rfl⟩, rfl⟩

theorem underWay_start (config : GatewayConfig) (t : Converters) (id : SessionId) (now : Nat) :
    (Session.start config t id now).UnderWay where
  agenda := ⟨[], _, rfl, by simp, .arriving⟩
  idle := nofun
  lanes _ := ⟨rfl, rfl, rfl⟩
  plain := by simp [Session.start]

namespace UnderWay

variable {s : Session}

theorem ready (h : s.UnderWay) (ht : s.todo = []) :
    Agenda s.stage s.lifecycle s.linked s.registered [] := by
  obtain ⟨ps, tail, hps, -, ha⟩ := h.agenda
  obtain ⟨-, rfl⟩ := List.append_eq_nil_iff.mp (hps.symm.trans ht)
  exact ha

theorem ready_handshake (h : s.UnderWay) (ht : s.todo = []) (hs : s.stage = .handshake) :
    (s.lifecycle = .awaitingAuth ∨ s.lifecycle = .awaitingHandshakeAck) ∧ s.linked = false ∧
      s.registered = false := by
  have ha := h.ready ht
  rw [hs] at ha
  generalize s.lifecycle = l at ha ⊢
  generalize s.linked = linked at ha ⊢
  generalize s.registered = registered at ha ⊢
  cases ha <;> simp

theorem not_ending (h : s.UnderWay) (e : GatewayError) : s.stage ≠ .ending e := by
  obtain ⟨_, _, -, -, ha⟩ := h.agenda
  intro hs
  rw [hs] at ha
  cases ha

/-- Outside of the forwarding the only thing that changes is what is to be done. -/
theorem plan {t : Session} (h : s.UnderWay) (hs : s.stage ≠ .forwarding)
    (hl : t.upward = s.upward ∧ t.downward = s.downward ∧ t.notices = s.notices)
    (hstage : t.stage ≠ .forwarding) (ps tail : List Act) (ht : t.todo = ps ++ tail)
    (hp : ∀ a ∈ ps, a.IsPlain) (ha : Agenda t.stage t.lifecycle t.linked t.registered tail) :
    t.UnderWay := by
  obtain ⟨hu, hd, hn⟩ := hl
  obtain ⟨hu', hd', hn'⟩ := h.lanes hs
  refine ⟨⟨ps, tail, ht, hp, ha⟩, fun h => absurd h hstage, fun _ => ?_, ?_⟩
  · exact ⟨hu.trans hu', hd.trans hd', hn.trans hn'⟩
  · simp [hd, hn, hd', hn']

theorem onGated (h : s.UnderWay) (ht : s.todo = []) (hs : s.stage ≠ .forwarding)
    (p : Client.Packet) : (s.onGated p).GoesOn := by
  unfold Session.onGated
  split
  · exact .inl (h.plan hs ⟨rfl, rfl, rfl⟩ hs [_] [] rfl
      (by simp [Act.IsPlain, Client.Packet.kind]) (h.ready ht))
  · exact goesOn_fail s _
  · exact .inl h

theorem offerPacks (h : s.UnderWay) (ht : s.todo = []) (hs : s.stage = .handshake) :
    s.offerPacks.UnderWay := by
  unfold Session.offerPacks
  split
  · next hif =>
    obtain ⟨-, hlinked, hregistered⟩ := h.ready_handshake ht hs
    refine h.plan (by simp [hs]) ⟨rfl, rfl, rfl⟩ (by simp [hs]) [_, _] [_] rfl
      (by simp [Act.IsPlain, Client.Packet.kind]) ?_
    change Agenda s.stage s.lifecycle s.linked s.registered _
    rw [hs, hif.1, hlinked, hregistered]
    exact .offering
  · exact h

theorem remember (h : s.UnderWay) (ht : s.todo = []) (hs : s.stage = .handshake)
    (c : Except SessionError SessionContext) : (s.remember c).GoesOn := by
  cases c with
  | error e => exact goesOn_fail s _
  | ok c =>
    have hc : ({ s with context := c } : Session).UnderWay := ⟨h.agenda, h.idle, h.lanes, h.plain⟩
    exact .inl (hc.offerPacks ht hs)

theorem onSettingsRequest (h : s.UnderWay) (ht : s.todo = []) (hs : s.stage = .handshake)
    (n : UInt32) : (s.onSettingsRequest n).GoesOn := by
  have hf : s.stage ≠ .forwarding := by simp [hs]
  unfold Session.onSettingsRequest
  split
  · exact .inl h
  · exact .inl (h.plan hf ⟨rfl, rfl, rfl⟩ hf [_, _] [] rfl
      (by simp [Act.IsPlain, Client.Packet.kind]) (h.ready ht))
  · obtain ⟨hl, hlinked, hregistered⟩ := h.ready_handshake ht hs
    refine .inl (h.plan hf ⟨rfl, rfl, rfl⟩ (by simp) [_] [] rfl
      (by simp [Act.IsPlain, Client.Packet.kind]) ?_)
    change Agenda _ s.lifecycle s.linked s.registered []
    rw [hlinked, hregistered]
    exact .refusing _ _ (by rcases hl with hl | hl <;> rw [hl] <;> decide)

theorem onLogin (h : s.UnderWay) (ht : s.todo = []) (hs : s.stage = .handshake) (n : UInt32)
    (c : Credentials) : (s.onLogin n c).GoesOn := by
  unfold Session.onLogin
  split
  · exact goesOn_fail s _
  · split
    · exact goesOn_fail s _
    · exact h.remember ht hs _

theorem onClientData (h : s.UnderWay) (ht : s.todo = []) (hs : s.stage = .handshake) (t : String) :
    (s.onClientData t).GoesOn := by
  unfold Session.onClientData
  split
  · exact goesOn_fail s _
  · exact h.remember ht hs _

theorem onPackResponse (h : s.UnderWay) (ht : s.todo = []) (hs : s.stage = .handshake)
    (r : Client.PackResponse) : (s.onPackResponse r).GoesOn := by
  unfold Session.onPackResponse
  split
  · exact .inl h
  · next hl =>
    rw [Decidable.not_not] at hl
    split
    · exact goesOn_fail s _
    · split
      · exact goesOn_fail s _
      · next c _ =>
        obtain ⟨-, hlinked, hregistered⟩ := h.ready_handshake ht hs
        have hf : s.stage ≠ .forwarding := by simp [hs]
        refine .inl (h.plan hf ⟨rfl, rfl, rfl⟩ hf [_] [_, _] rfl
          (by simp [Act.IsPlain, Client.Packet.kind]) ?_)
        change Agenda s.stage s.lifecycle s.linked s.registered _
        rw [hs, hl, hlinked, hregistered]
        exact .accepting c

theorem onHandshake (h : s.UnderWay) (ht : s.todo = []) (hs : s.stage = .handshake)
    (p : Client.Packet) : (s.onHandshake p).GoesOn := by
  unfold Session.onHandshake
  split
  · exact h.onSettingsRequest ht hs _
  · exact h.onLogin ht hs _ _
  · exact h.onClientData ht hs _
  · exact h.onPackResponse ht hs _
  · exact h.onGated ht (by simp [hs]) _

theorem awaitClient (h : s.UnderWay) (now : Nat) : (s.awaitClient now).UnderWay := by
  unfold Session.awaitClient
  split
  · exact ⟨h.agenda, h.idle, h.lanes, h.plain⟩
  · exact h

theorem onClientPacket (h : s.UnderWay) (hs : s.stage = .forwarding) (now : Nat)
    (p : Client.Packet) : (s.onClientPacket now p).GoesOn := by
  unfold Session.onClientPacket
  split
  · exact goesOn_fail s _
  · refine .inl (UnderWay.awaitClient ?_ now)
    exact ⟨h.agenda, h.idle, fun hn => absurd hs hn, h.plain⟩

theorem onBackendPacket (h : s.UnderWay) (hs : s.stage = .forwarding) (ht : s.converters.Discreet)
    (p : Backend.Packet) : (s.onBackendPacket p).GoesOn := by
  unfold Session.onBackendPacket
  split
  · exact goesOn_fail s _
  · next hp =>
    refine .inl ⟨h.agenda, h.idle, fun hn => absurd hs hn, ?_⟩
    intro q hq
    rcases List.mem_append.mp hq with hq | hq
    · exact ht _ _ p (by cases p <;> simp_all [Backend.Packet.kind]) q hq
    · exact h.plain q (List.mem_append_right _ hq)

theorem onCommand (h : s.UnderWay) (hs : s.stage = .forwarding) (k : SessionCommand) :
    (s.onCommand k).GoesOn := by
  cases k with
  | close reason => exact goesOn_fail s _
  | sendMessage text =>
    refine .inl ⟨h.agenda, h.idle, fun hn => absurd hs hn, ?_⟩
    intro q hq
    rcases List.mem_append.mp hq with hq | hq
    · exact h.plain q (List.mem_append_left _ hq)
    · rw [List.mem_singleton.mp hq]
      simp [Client.Packet.systemText, Client.Packet.kind]

theorem connected (h : s.UnderWay) (hs : s.stage = .linking) (ht : s.todo = []) (u : String) :
    ({ s with
        stage := .joining
        linked := true
        todo := [.enter .established, .register u] } : Session).UnderWay := by
  have ha := h.ready ht
  refine h.plan (by simp [hs]) ⟨rfl, rfl, rfl⟩ (by simp) [] _ rfl (by simp) ?_
  change Agenda _ s.lifecycle _ s.registered _
  rw [hs] at ha
  generalize s.lifecycle = l at ha ⊢
  generalize s.linked = linked at ha
  generalize s.registered = registered at ha ⊢
  cases ha
  exact .linked u

theorem settle (h : s.UnderWay) (now : Nat) : (s.settle now).GoesOn := by
  unfold Session.settle
  split
  · exact goesOn_fail s _
  · next hs ht =>
    have ha := h.ready ht
    have hl := h.lanes (by simp [hs])
    refine .inl (UnderWay.awaitClient ?_ now)
    refine ⟨⟨[], [], ht, by simp, ?_⟩, fun _ => ht, fun hn => absurd rfl hn, ?_⟩
    · change Agenda _ s.lifecycle s.linked s.registered _
      rw [hs] at ha
      generalize s.lifecycle = l at ha ⊢
      generalize s.linked = linked at ha ⊢
      generalize s.registered = registered at ha ⊢
      cases ha
      exact .forwarding
    · simp [hl.2.1, hl.2.2]
  · exact .inl h

theorem onDone (h : s.UnderWay) (now : Nat) : (s.onDone now).GoesOn := by
  obtain ⟨ps, tail, hps, hp, ha⟩ := h.agenda
  cases ps with
  | cons a ps =>
    have hs : s.stage ≠ .forwarding := fun hs => by simp [h.idle hs] at hps
    rw [onDone_of_isPlain hps (hp a List.mem_cons_self)]
    apply settle
    exact h.plan hs ⟨rfl, rfl, rfl⟩ hs ps tail rfl (fun b hb => hp b (List.mem_cons_of_mem _ hb)) ha
  | nil =>
    cases tail with
    | nil =>
      rw [onDone_nil hps]
      exact .inl h
    | cons a r =>
      have hs : s.stage ≠ .forwarding := fun hs => by simp [h.idle hs] at hps
      -- The agenda decides which act comes first, and with it what the next agenda is.
      rcases ha.head with ⟨l, rfl, hn⟩ | ⟨c, rfl, hn⟩ | ⟨u, rfl, rfl, hn⟩
      · rw [onDone_enter hps]
        apply settle
        exact h.plan hs ⟨rfl, rfl, rfl⟩ hs [] r rfl (by simp) hn
      · rw [onDone_connect hps]
        exact .inl (h.plan hs ⟨rfl, rfl, rfl⟩ nofun [] r rfl (by simp) hn)
      · rw [onDone_register hps]
        apply settle
        refine h.plan hs ⟨rfl, rfl, rfl⟩ hs (List.map .ask _) [] (List.append_nil _).symm ?_ ?_
        · intro a ha
          obtain ⟨p, -, rfl⟩ := List.mem_map.mp ha
          trivial
        · exact hn

theorem next?_lane (h : s.UnderWay) {lane : Lane} {a : Act} (hn : s.next? lane = some a)
    (hl : lane ≠ .main) : s.stage = .forwarding := by
  refine Decidable.byContradiction fun hs => ?_
  obtain ⟨hu, hd, hnt⟩ := h.lanes hs
  cases lane <;> simp_all [next?]

theorem handle_failed (h : s.UnderWay) (now : Nat) (lane : Lane) (e : GatewayError) :
    s.handle now (.done lane (.error e)) = s.fail e := by
  simp only [Session.handle, onFailed]
  split
  · next e' hs => exact absurd hs (h.not_ending e')
  · rfl

/-- An event leaves a session under way, or makes it begin to end. -/
theorem handle (h : s.UnderWay) (hc : s.converters.Discreet) {e : Event} (ha : s.admits e)
    (now : Nat) : (s.handle now e).GoesOn := by
  cases e with
  | shutdown => exact goesOn_fail s _
  | timeUp => exact goesOn_fail s _
  | client r =>
    cases r with
    | error e => exact goesOn_fail s e
    | ok p =>
      rcases admits_client ha with ⟨hs | hs, ht⟩ | ⟨hs, -⟩
      · simpa only [Session.handle, hs] using h.onHandshake ht hs p
      · simpa only [Session.handle, hs] using h.onGated ht (by simp [hs]) p
      · simpa only [Session.handle, hs] using h.onClientPacket hs now p
  | connected r =>
    obtain ⟨hs, ht⟩ := admits_connected ha
    cases r with
    | error e => exact goesOn_fail s _
    | ok u => exact .inl (h.connected hs ht _)
  | backend r =>
    cases r with
    | error e => exact goesOn_fail s e
    | ok p => exact h.onBackendPacket (admits_backend ha).1 hc p
  | command k => exact h.onCommand (admits_command ha).1 k
  | done lane r =>
    obtain ⟨a, hn, -⟩ := admits_done ha
    cases r with
    | error e =>
      rw [h.handle_failed]
      exact goesOn_fail s e
    | ok u =>
      cases lane with
      | main => exact h.onDone now
      | toBackend =>
        have hs := h.next?_lane hn (by simp)
        refine .inl (UnderWay.awaitClient ?_ now)
        exact ⟨h.agenda, h.idle, fun hn => absurd hs hn, h.plain⟩
      | toClient =>
        have hs := h.next?_lane hn (by simp)
        refine .inl ⟨h.agenda, h.idle, fun hn => absurd hs hn, fun p hp => h.plain p ?_⟩
        rcases List.mem_append.mp hp with hp | hp
        · exact List.mem_append_left _ (List.mem_of_mem_tail hp)
        · exact List.mem_append_right _ hp
      | commands =>
        have hs := h.next?_lane hn (by simp)
        refine .inl ⟨h.agenda, h.idle, fun hn => absurd hs hn, fun p hp => h.plain p ?_⟩
        rcases List.mem_append.mp hp with hp | hp
        · exact List.mem_append_left _ hp
        · exact List.mem_append_right _ (List.mem_of_mem_tail hp)

end UnderWay

end Session
end EditionGateway
