import EditionGateway.Proofs.Session.Admission
import EditionGateway.Proofs.Session.Teardown

/-!
The handshake lets in just those clients that send an admissible sequence of packets, and sends them
just what they are to know.
-/

namespace EditionGateway

open Client.Packet Notes

/-- An act that reaches out for the backend or the registry. -/
def Act.Engages (a : Act) : Prop := a.kind = .connect ∨ a.kind = .register

/-- The answers to the latency probes among these packets. -/
def echoes (ps : List Client.Packet) : List Client.Packet := ps.filterMap fun
  | .networkStackLatency timestamp true => some (.networkStackLatency timestamp false)
  | _ => none

/-- Those packets that are about the latency. -/
def latency (ps : List Client.Packet) : List Client.Packet :=
  ps.filter (·.kind = .networkStackLatency)

/-- All other packets. -/
def courtesy (ps : List Client.Packet) : List Client.Packet :=
  ps.filter (·.kind ≠ .networkStackLatency)

@[simp] theorem echoes_append (ps qs : List Client.Packet) :
    echoes (ps ++ qs) = echoes ps ++ echoes qs :=
  List.filterMap_append

@[simp] theorem latency_append (ps qs : List Client.Packet) :
    latency (ps ++ qs) = latency ps ++ latency qs :=
  List.filter_append ..

@[simp] theorem courtesy_append (ps qs : List Client.Packet) :
    courtesy (ps ++ qs) = courtesy ps ++ courtesy qs :=
  List.filter_append ..

/-- The state that a context leads to in the handshake. -/
def SessionContext.due (c : SessionContext) : Lifecycle :=
  if c.isAuthenticated then .awaitingHandshakeAck else .awaitingAuth

/-- What a client is told in the handshake, by what it has said about itself. -/
def SessionContext.greetings (c : SessionContext) (threshold : UInt16) : List Client.Packet :=
  (if c.version.isSome then [.networkSettings threshold] else []) ++
    if c.isAuthenticated then [.playStatus .loginSuccess, .resourcePacksInfo false []] else []

namespace Session

/-- The state that a session will be in when it has done all that it has to do. -/
def bound (s : Session) : Lifecycle := (s.todo.filterMap Act.entered?).getLast?.getD s.lifecycle

/-- What the client will be told until then. -/
def replies (s : Session) : List Client.Packet := s.todo.filterMap Act.told?

/-- After a packet the client may still be let in. -/
structure Heeds (s : Session) (ps : List Client.Packet) (p : Client.Packet) (t : Session) : Prop where
  stage : t.stage = .handshake
  promising : Promising (ps ++ [p]) t.context
  bound : t.bound = t.context.due
  latency : latency t.replies = echoes [p]
  courtesy : t.context.greetings s.threshold = s.context.greetings s.threshold ++ courtesy t.replies
  quiet : ∀ a ∈ t.todo, ¬ a.Engages

/-- With a packet the client is let in. -/
def LetsIn (s : Session) (ps : List Client.Packet) (p : Client.Packet) (t : Session) : Prop :=
  ∃ v c, Admissible (ps ++ [p]) v c ∧ echoes [p] = [] ∧
    s.context.greetings s.threshold =
      [.networkSettings s.threshold, .playStatus .loginSuccess, .resourcePacksInfo false []] ∧
    t = { s with
      todo := [.tell (.resourcePackStack false [] v.name), .enter .linkingBackend, .connect c] }

/-- After a packet the client is not let in whatever it does. -/
structure Refuses (ps : List Client.Packet) (p : Client.Packet) (t : Session) : Prop where
  stage : ∃ e, t.stage = .refusing e ∨ t.stage = .ending e
  doomed : Doomed (ps ++ [p])
  latency : latency t.replies = echoes [p]
  quiet : ∀ a ∈ t.todo, ¬ a.Engages

/-- What a packet can do in the handshake. -/
def Weighs (s : Session) (ps : List Client.Packet) (p : Client.Packet) (t : Session) : Prop :=
  Heeds s ps p t ∨ LetsIn s ps p t ∨ Refuses ps p t

/-- A session that waits for a packet of a client that may be let in. -/
structure Ready (s : Session) (ps : List Client.Packet) : Prop where
  stage : s.stage = .handshake
  todo : s.todo = []
  promising : Promising ps s.context
  lifecycle : s.lifecycle = s.context.due

theorem quiet_teardown (s : Session) (e : GatewayError) : ∀ a ∈ s.teardown e, ¬ a.Engages := by
  intro a ha hk
  rcases mem_teardown ha with rfl | rfl | rfl | rfl | rfl | rfl | rfl <;>
    simp [Act.Engages, Act.kind] at hk

/-- A farewell has nothing to do with the latency. -/
theorem latency_teardown (s : Session) (e : GatewayError) :
    EditionGateway.latency ((s.teardown e).filterMap Act.told?) = [] := by
  rw [told_teardown]
  split <;> rfl

theorem refuses_fail (s : Session) {ps : List Client.Packet} {p : Client.Packet}
    (h : Doomed (ps ++ [p])) (hp : echoes [p] = []) (e : GatewayError) : Refuses ps p (s.fail e) :=
  ⟨⟨e, .inr rfl⟩, h, (s.latency_teardown e).trans hp.symm, s.quiet_teardown e⟩

namespace Ready

variable {s : Session} {ps : List Client.Packet} {p : Client.Packet}

/-- A packet that is dropped. -/
theorem heeds_self (h : s.Ready ps) (hp : Promising (ps ++ [p]) s.context) (he : echoes [p] = []) :
    Heeds s ps p s where
  stage := h.stage
  promising := hp
  bound := by simp [Session.bound, h.todo, h.lifecycle]
  latency := by simp [replies, h.todo, he, EditionGateway.latency]
  courtesy := by simp [replies, h.todo, EditionGateway.courtesy]
  quiet := by simp [h.todo]

theorem onGated (h : s.Ready ps) (hp : p.kind ≠ .requestNetworkSettings ∧ p.kind ≠ .login ∧
    p.kind ≠ .clientData ∧ p.kind ≠ .resourcePackClientResponse) : Weighs s ps p (s.onGated p) := by
  have hpass (hd : p.kind ≠ .disconnect) : Promising (ps ++ [p]) s.context :=
    h.promising.pass ⟨hd, hp.2.1, hp.2.2.1⟩ (fun hk => absurd hk hp.1) fun hk => absurd hk hp.2.2.2
  unfold Session.onGated
  split
  · next timestamp =>
    refine .inl ⟨h.stage, hpass (by simp [Client.Packet.kind]), ?_, rfl, ?_, ?_⟩
    · exact h.lifecycle
    · simp [replies, Act.told?, EditionGateway.courtesy, Client.Packet.kind]
    · simp [Act.Engages, Act.kind]
  · exact .inr (.inr (refuses_fail s (Promising.doomed_quit rfl) rfl _))
  · next hno hnd =>
    have hd : p.kind ≠ .disconnect := by
      intro hk
      cases p <;> simp_all [Client.Packet.kind]
    have he : echoes [p] = [] := by
      unfold echoes
      rw [List.filterMap_cons]
      split
      · rfl
      · next hs =>
        split at hs
        · exact absurd rfl (hno _)
        · cases hs
    exact .inl (h.heeds_self (hpass hd) he)

/-- What a client has told about itself is kept, and the packs are offered when it is all there. -/
theorem remember (h : s.Ready ps) {c : SessionContext} (hp : Promising (ps ++ [p]) c)
    (hv : c.version = s.context.version) (ha : s.context.isAuthenticated = false)
    (he : echoes [p] = []) : Heeds s ps p (s.remember (.ok c)) := by
  have hl : s.lifecycle = .awaitingAuth := by simp [h.lifecycle, SessionContext.due, ha]
  unfold Session.remember Session.offerPacks
  dsimp only
  split
  · next hif =>
    -- This was the last thing to be known about the client, so it is offered the packs.
    refine ⟨h.stage, hp, ?_, ?_, ?_, ?_⟩
    · rw [SessionContext.due, if_pos hif.2]
      rfl
    · simp [replies, Act.told?, he, EditionGateway.latency, Client.Packet.kind]
    · simp [replies, Act.told?, EditionGateway.courtesy, Client.Packet.kind, hv, ha, hif.2,
        SessionContext.greetings]
    · simp [Act.Engages, Act.kind]
  · next hif =>
    -- Something is still to be known, and nothing is said.
    have hc : c.isAuthenticated = false := by simpa [hl] using hif
    refine ⟨h.stage, hp, ?_, ?_, ?_, ?_⟩
    · simp [Session.bound, h.todo, hl, SessionContext.due, hc]
    · simp [replies, h.todo, he, EditionGateway.latency]
    · simp [replies, h.todo, EditionGateway.courtesy, hv, ha, hc, SessionContext.greetings]
    · simp [h.todo]

theorem onSettingsRequest (h : s.Ready ps) (n : UInt32) :
    Weighs s ps (.requestNetworkSettings n) (s.onSettingsRequest n) := by
  unfold Session.onSettingsRequest
  split
  · next v hv =>
    refine .inl (h.heeds_self (h.promising.pass ?_ (fun _ => by simp [hv]) ?_) rfl) <;>
      simp [Client.Packet.kind]
  · next v hv hs =>
    have ha : s.context.isAuthenticated = false := h.promising.unauthenticated hv
    refine .inl ⟨h.stage, h.promising.select hv hs, ?_, rfl, ?_, ?_⟩
    · exact h.lifecycle
    · have ha' : ({ s.context with version := some v } : SessionContext).isAuthenticated = false := ha
      simp [replies, Act.told?, EditionGateway.courtesy, Client.Packet.kind, hv, ha, ha',
        SessionContext.greetings]
    · simp [Act.Engages, Act.kind]
  · next hv hs =>
    refine .inr (.inr ⟨⟨_, .inl rfl⟩, h.promising.doomed_unsupported hv hs, rfl, ?_⟩)
    simp [Act.Engages, Act.kind]

theorem onLogin (h : s.Ready ps) (n : UInt32) (c : Credentials) :
    Weighs s ps (.login n c.username c.uuid c.xuid c.token) (s.onLogin n c) := by
  unfold Session.onLogin
  split
  · next hv =>
    exact .inr (.inr (refuses_fail s (h.promising.doomed_unasked hv (.inl rfl)) rfl _))
  · next v hv =>
    split
    · next hn =>
      exact .inr (.inr (refuses_fail s (h.promising.doomed_login hv (.inl hn)) rfl _))
    · next hn =>
      obtain rfl := Decidable.not_not.mp hn
      cases hc : c.validate with
      | error e =>
        have hdoomed := h.promising.doomed_login hv (n := v.protocol) (c := c)
          (.inr (.inl (by simp [hc])))
        exact .inr (.inr (refuses_fail s hdoomed rfl _))
      | ok u =>
        cases ha : s.context.auth with
        | some d =>
          have hset : s.context.setAuth c = .error (.alreadySet "auth data") := by
            simp [SessionContext.setAuth, ha]
          simp only [Except.bind, hset]
          have hdoomed := h.promising.doomed_login hv (n := v.protocol) (c := c)
            (.inr (.inr (by simp [ha])))
          exact .inr (.inr (refuses_fail s hdoomed rfl _))
        | none =>
          have hset : s.context.setAuth c = .ok { s.context with auth := some c } := by
            simp [SessionContext.setAuth, ha]
          simp only [Except.bind, hset]
          exact .inl (h.remember (h.promising.logIn hv ha hc) rfl
            (by simp [SessionContext.isAuthenticated, ha]) rfl)

theorem onClientData (h : s.Ready ps) (payload : String) :
    Weighs s ps (.clientData payload) (s.onClientData payload) := by
  unfold Session.onClientData
  split
  · next hv =>
    rw [Option.isNone_iff_eq_none] at hv
    exact .inr (.inr (refuses_fail s (h.promising.doomed_unasked hv (.inr rfl)) rfl _))
  · next hv =>
    rw [Option.isNone_iff_eq_none] at hv
    cases hd : ClientData.parse payload with
    | error e =>
      exact .inr (.inr (refuses_fail s (h.promising.doomed_clientData (.inl (by simp [hd]))) rfl _))
    | ok d =>
      cases ha : s.context.clientData with
      | some d' =>
        have hset : s.context.setClientData d = .error (.alreadySet "client data") := by
          simp [SessionContext.setClientData, ha]
        simp only [Except.bind, hset]
        exact .inr (.inr (refuses_fail s (h.promising.doomed_clientData (.inr (by simp [ha]))) rfl _))
      | none =>
        have hset : s.context.setClientData d = .ok { s.context with clientData := some d } := by
          simp [SessionContext.setClientData, ha]
        simp only [Except.bind, hset]
        exact .inl (h.remember (h.promising.describe hv ha hd) rfl
          (by simp [SessionContext.isAuthenticated, ha]) rfl)

theorem onPackResponse (h : s.Ready ps) (r : Client.PackResponse) :
    Weighs s ps (.resourcePackClientResponse r) (s.onPackResponse r) := by
  unfold Session.onPackResponse
  split
  · next hl =>
    have ha : s.context.isAuthenticated = false := by
      refine Bool.eq_false_iff.mpr fun ha => hl ?_
      simp [h.lifecycle, SessionContext.due, ha]
    refine .inl (h.heeds_self (h.promising.pass ?_ ?_ fun _ => ha) rfl) <;>
      simp [Client.Packet.kind]
  · next hl =>
    have ha : s.context.isAuthenticated = true := by
      refine Decidable.byContradiction fun ha => hl ?_
      simp [h.lifecycle, SessionContext.due, ha]
    split
    · next hr =>
      subst hr
      exact .inr (.inr (refuses_fail s (h.promising.doomed_refused ha) rfl _))
    · next hr =>
      obtain ⟨v, c, hv, hc, hadm⟩ := h.promising.admitted ha hr
      refine .inr (.inl ⟨v, c, hadm, rfl, ?_, ?_⟩)
      · simp [SessionContext.greetings, hv, ha]
      · simp [hc, hv]

/-- In the handshake a packet brings a client closer to being let in, or it decides about it. -/
theorem onHandshake (h : s.Ready ps) (p : Client.Packet) : Weighs s ps p (s.onHandshake p) := by
  cases p with
  | requestNetworkSettings n => exact h.onSettingsRequest n
  | login n username uuid xuid token => exact h.onLogin n ⟨username, uuid, xuid, token⟩
  | clientData payload => exact h.onClientData payload
  | resourcePackClientResponse r => exact h.onPackResponse r
  | _ => exact h.onGated (by simp [Client.Packet.kind])

end Ready
end Session
end EditionGateway
