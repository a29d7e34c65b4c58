import EditionGateway.Proofs.Session.Entrance

/-!
Packets for which a session does not do more than to answer a latency probe, and the time that a session
has for its handshake, which no packet extends.
-/

namespace EditionGateway

theorem echoes_of_silent {p : Client.Packet} (h : ∀ timestamp, p ≠ .networkStackLatency timestamp true) :
    echoes [p] = [] := by
  unfold echoes
  rw [List.filterMap_cons]
  split
  · rfl
  · next hs =>
    split at hs
    · exact absurd rfl (h _)
    · cases hs

namespace Session

variable {s : Session}

/-! ### Packets that change nothing -/

/-- A packet that neither brings the handshake on nor ends it. -/
def Disregards (s : Session) : Client.Packet → Prop
  | .requestNetworkSettings _ => s.context.version.isSome
  | .login .. | .clientData _ | .disconnect .. => False
  | .resourcePackClientResponse _ => s.lifecycle ≠ .awaitingHandshakeAck
  | _ => True

/-- A session that answers a packet if it is a latency probe, and does nothing else. -/
def Echoes (s : Session) (p : Client.Packet) : Prop :=
  ∀ now, s.handle now (.client (.ok p)) = { s with todo := (echoes [p]).map .tell }

theorem onGated_eq (ht : s.todo = []) {p : Client.Packet} (hp : p.kind ≠ .disconnect) :
    s.onGated p = { s with todo := (echoes [p]).map .tell } := by
  unfold onGated
  split
  · rfl
  · exact absurd rfl hp
  · next hno _ => rw [echoes_of_silent fun t => hno t, List.map_nil, ← ht]

theorem echoes_of_linking (hs : s.stage = .linking) (ht : s.todo = []) {p : Client.Packet}
    (hp : p.kind ≠ .disconnect) : s.Echoes p := by
  intro now
  have hgated : s.handle now (.client (.ok p)) = s.onGated p := by simp only [handle, hs]
  rw [hgated, onGated_eq ht hp]

theorem onHandshake_of_disregards (ht : s.todo = []) {p : Client.Packet} (hp : s.Disregards p) :
    s.onHandshake p = { s with todo := (echoes [p]).map .tell } := by
  have hself : { s with todo := [] } = s := by rw [← ht]
  unfold onHandshake
  split
  · obtain ⟨v, hv⟩ := Option.isSome_iff_exists.mp hp
    exact (by simp only [onSettingsRequest, hv] : s.onSettingsRequest _ = s).trans hself.symm
  · exact hp.elim
  · exact hp.elim
  · exact (if_pos hp).trans hself.symm
  · next _ hlogin _ _ =>
    refine onGated_eq ht fun hk => ?_
    cases p <;> first | exact hp.elim | cases hk

theorem echoes_of_disregards (hs : s.stage = .handshake) (ht : s.todo = []) {p : Client.Packet}
    (hp : s.Disregards p) : s.Echoes p := by
  intro now
  have hhandshake : s.handle now (.client (.ok p)) = s.onHandshake p := by simp only [handle, hs]
  rw [hhandshake, onHandshake_of_disregards ht hp]

/-! ### The time for the handshake -/

/-- If there is a handshake afterwards it is the one from before, and it has no more time. -/
def KeepsTime (s t : Session) : Prop :=
  t.stage = .handshake → s.stage = .handshake ∧ t.deadline = s.deadline

theorem keepsTime_fail (s : Session) (e : GatewayError) : KeepsTime s (s.fail e) := nofun

theorem keepsTime_onGated (s : Session) (p : Client.Packet) : KeepsTime s (s.onGated p) := by
  unfold onGated
  split
  · exact fun h => ⟨h, rfl⟩
  · exact keepsTime_fail s _
  · exact fun h => ⟨h, rfl⟩

theorem keepsTime_remember (s : Session) (c : Except SessionError SessionContext) :
    KeepsTime s (s.remember c) := by
  cases c with
  | error e => exact keepsTime_fail s _
  | ok c =>
    unfold remember offerPacks
    dsimp only
    split
    · exact fun h => ⟨h, rfl⟩
    · exact fun h => ⟨h, rfl⟩

theorem keepsTime_onHandshake (s : Session) (p : Client.Packet) : KeepsTime s (s.onHandshake p) := by
  unfold onHandshake
  split
  · unfold onSettingsRequest
    split
    · exact fun h => ⟨h, rfl⟩
    · exact fun h => ⟨h, rfl⟩
    · nofun
  · unfold onLogin
    split
    · exact keepsTime_fail s _
    · split
      · exact keepsTime_fail s _
      · exact keepsTime_remember s _
  · unfold onClientData
    split
    · exact keepsTime_fail s _
    · exact keepsTime_remember s _
  · unfold onPackResponse
    split
    · exact fun h => ⟨h, rfl⟩
    · split
      · exact keepsTime_fail s _
      · split
        · exact keepsTime_fail s _
        · exact fun h => ⟨h, rfl⟩
  · exact keepsTime_onGated s _

theorem keepsTime_settle {s t : Session} (h : KeepsTime s t) (now : Nat) :
    KeepsTime s (t.settle now) := by
  unfold settle
  split
  · nofun
  · unfold awaitClient
    split <;> nofun
  · exact h

theorem keepsTime_onDone (s : Session) (now : Nat) : KeepsTime s (s.onDone now) := by
  have hself (t : Session) (hs : t.stage = s.stage) (hd : t.deadline = s.deadline) :
      KeepsTime s (t.settle now) :=
    keepsTime_settle (fun h => ⟨hs.symm.trans h, hd⟩) now
  unfold onDone
  split
  · exact fun h => ⟨h, rfl⟩
  · dsimp only
    split
    · exact hself _ rfl rfl
    · nofun
    · exact hself _ rfl rfl
    · exact hself _ rfl rfl

/-- Nothing that happens to a session gives it more time for its handshake. -/
theorem keepsTime_handle {s : Session} (hu : s.UnderWay) {e : Event} (ha : s.admits e) (now : Nat) :
    KeepsTime s (s.handle now e) := by
  by_cases hpast : s.IsPast
  · exact fun h => absurd h (proceeds_handle hpast now e).1.not_handshake
  have hnot (hs : s.stage = .forwarding) : False := hpast (.inr (.inr (.inl hs)))
  cases e with
  | shutdown => exact keepsTime_fail s _
  | timeUp => exact keepsTime_fail s _
  | client r =>
    cases r with
    | error e => exact keepsTime_fail s e
    | ok p =>
      simp only [handle]
      split
      · exact keepsTime_onHandshake s p
      · next hs => exact (hnot hs).elim
      · exact keepsTime_onGated s p
  | connected r =>
    cases r with
    | error e => exact keepsTime_fail s _
    | ok u =>
      intro h
      cases h
  | backend r => exact (hnot (admits_backend ha).1).elim
  | command k => exact (hnot (admits_command ha).1).elim
  | done lane r =>
    cases r with
    | error e =>
      rw [hu.handle_failed]
      exact keepsTime_fail s e
    | ok u =>
      obtain ⟨a, hn, -⟩ := admits_done ha
      by_cases hl : lane = .main
      · subst hl
        exact keepsTime_onDone s now
      · exact (hnot (hu.next?_lane hn hl)).elim

theorem settings_handle {s : Session} {e : Event} (ha : s.admits e) (now : Nat) :
    (s.handle now e).settings = s.settings := by
  cases alters ha now with
  | done a rest event todo fixture => exact congrArg Fixture.settings fixture
  | linked event fixture => exact congrArg Fixture.settings fixture
  | packet event link fixture => exact congrArg Fixture.settings fixture

end Session

namespace Course

/-- As long as the handshake goes on it has to end at the same time, counted from when the session has
started. -/
theorem deadline_after (config : GatewayConfig) (mappings : Mappings) (id : SessionId) (now : Nat)
    (es : List (Nat × Event)) :
    let s := ((start config (.standard mappings) id now).after es).session
    s.settings = config.session ∧
      (s.stage = .handshake → s.deadline = now + config.session.handshakeTimeout.nanos) := by
  let P (c : Course) : Prop := c.session.settings = config.session ∧
    (c.session.stage = .handshake → c.session.deadline = now + config.session.handshakeTimeout.nanos)
  refine (orderly_start config _ id now).induction (P := P) (Converters.standard_discreet mappings)
    ⟨rfl, fun _ => rfl⟩ ?_ es
  rintro c time e ho ⟨hsettings, htime⟩ ha
  refine ⟨(Session.settings_handle ha time).trans hsettings, fun h => ?_⟩
  by_cases hend : ∃ e, c.session.stage = .ending e
  · exact absurd h (Session.proceeds_handle (.inr (.inr (.inr hend))) time e).1.not_handshake
  · obtain ⟨hs, hd⟩ := Session.keepsTime_handle (ho.underWay fun e he => hend ⟨e, he⟩) ha time h
    exact hd.trans (htime hs)

end Course
end EditionGateway
