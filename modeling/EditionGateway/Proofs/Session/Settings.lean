import EditionGateway.Proofs.Session.Teardown

/-!
How a session settles on the form of its link with the client: it answers one request for network settings,
and right after the answer it sets the threshold. All else that it does is routine.
-/

namespace EditionGateway

namespace SessionContext

theorem version_setAuth {c d : SessionContext} {a : Credentials} (h : c.setAuth a = .ok d) :
    d.version = c.version := by
  unfold setAuth at h
  split at h
  · rw [← Except.ok.inj h]
  · cases h

theorem version_setClientData {c d : SessionContext} {data : ClientData} (h : c.setClientData data = .ok d) :
    d.version = c.version := by
  unfold setClientData at h
  split at h
  · rw [← Except.ok.inj h]
  · cases h

end SessionContext

/-- An act that has nothing to do with the settings of the link. -/
def Act.IsRoutine : Act → Prop
  | .tell p => p.kind ≠ .networkSettings
  | .compress _ => False
  | _ => True

theorem Act.IsRoutine.kind {a : Act} (h : a.IsRoutine) : a.kind ≠ .compress := by
  cases a with
  | compress t => exact h.elim
  | _ => exact nofun

namespace Session

/-- All that is to be done is routine. -/
structure Routine (s : Session) : Prop where
  todo : ∀ a ∈ s.todo, a.IsRoutine
  lanes : ∀ p ∈ s.downward ++ s.notices, p.kind ≠ .networkSettings

/-- What is to be done then is routine, and during the handshake the version is still the same. -/
structure RunsOn (s t : Session) : Prop where
  routine : t.Routine
  version : t.stage = .handshake → s.stage = .handshake ∧ t.context.version = s.context.version

theorem routine_start (config : GatewayConfig) (t : Converters) (id : SessionId) (now : Nat) :
    (Session.start config t id now).Routine :=
  ⟨List.forall_mem_singleton.mpr trivial, nofun⟩

theorem runsOn_fail (s : Session) (e : GatewayError) : s.RunsOn (s.fail e) := by
  refine ⟨⟨fun a ha => ?_, nofun⟩, nofun⟩
  rcases mem_teardown ha with rfl | rfl | rfl | rfl | rfl | rfl | rfl
  case inr.inr.inl => exact nofun
  all_goals trivial

namespace RunsOn

variable {s t : Session}

theorem trans {u : Session} (h : s.RunsOn t) (k : t.RunsOn u) : s.RunsOn u := by
  refine ⟨k.routine, fun hu => ?_⟩
  obtain ⟨ht, hversion⟩ := k.version hu
  exact ⟨(h.version ht).1, hversion.trans (h.version ht).2⟩

theorem awaitClient (h : s.RunsOn t) (now : Nat) : s.RunsOn (t.awaitClient now) := by
  unfold Session.awaitClient
  split
  · exact ⟨⟨h.routine.todo, h.routine.lanes⟩, h.version⟩
  · exact h

theorem settle (h : s.RunsOn t) (now : Nat) : s.RunsOn (t.settle now) := by
  unfold Session.settle
  split
  · exact h.trans (runsOn_fail t _)
  · refine awaitClient ?_ now
    exact ⟨⟨h.routine.todo, h.routine.lanes⟩, fun ht => nomatch ht⟩
  · exact h

end RunsOn

namespace Routine

variable {s : Session}

theorem next? (h : s.Routine) {lane : Lane} {a : Act} (hn : s.next? lane = some a) : a.IsRoutine := by
  cases lane with
  | main => exact h.todo a (List.mem_of_mem_head? hn)
  | toBackend =>
    obtain ⟨p, -, rfl⟩ := Option.map_eq_some_iff.mp hn
    trivial
  | toClient =>
    obtain ⟨p, hp, rfl⟩ := Option.map_eq_some_iff.mp hn
    exact h.lanes p (List.mem_append_left _ (List.mem_of_mem_head? hp))
  | commands =>
    obtain ⟨p, hp, rfl⟩ := Option.map_eq_some_iff.mp hn
    exact h.lanes p (List.mem_append_right _ (List.mem_of_mem_head? hp))

theorem runsOn (h : s.Routine) : s.RunsOn s := ⟨h, fun hs => ⟨hs, rfl⟩⟩

/-- Other things are to be done. -/
theorem plan (h : s.Routine) {t : Session} (todo : ∀ a ∈ t.todo, a.IsRoutine)
    (lanes : t.downward = s.downward ∧ t.notices = s.notices)
    (version : t.stage = .handshake → s.stage = .handshake ∧ t.context.version = s.context.version) :
    s.RunsOn t := by
  refine ⟨⟨todo, ?_⟩, version⟩
  rw [lanes.1, lanes.2]
  exact h.lanes

theorem onGated (h : s.Routine) (p : Client.Packet) : s.RunsOn (s.onGated p) := by
  unfold Session.onGated
  split
  · exact h.plan (List.forall_mem_singleton.mpr nofun) ⟨rfl, rfl⟩ fun hs => ⟨hs, rfl⟩
  · exact runsOn_fail s _
  · exact h.runsOn

theorem remember (h : s.Routine) {c : Except SessionError SessionContext}
    (same : ∀ d, c = .ok d → d.version = s.context.version) : s.RunsOn (s.remember c) := by
  cases c with
  | error e => exact runsOn_fail s _
  | ok d =>
    have hsame := same d rfl
    unfold Session.remember offerPacks
    dsimp only
    split
    · refine h.plan ?_ ⟨rfl, rfl⟩ fun hs => ⟨hs, hsame⟩
      simp [Act.IsRoutine, Client.Packet.kind]
    · exact h.plan h.todo ⟨rfl, rfl⟩ fun hs => ⟨hs, hsame⟩

theorem onLogin (h : s.Routine) (n : UInt32) (c : Credentials) : s.RunsOn (s.onLogin n c) := by
  unfold Session.onLogin
  split
  · exact runsOn_fail s _
  · split
    · exact runsOn_fail s _
    · refine h.remember fun d hd => ?_
      cases hv : c.validate with
      | error e =>
        rw [hv] at hd
        cases hd
      | ok u =>
        rw [hv] at hd
        exact SessionContext.version_setAuth hd

theorem onClientData (h : s.Routine) (payload : String) : s.RunsOn (s.onClientData payload) := by
  unfold Session.onClientData
  split
  · exact runsOn_fail s _
  · refine h.remember fun d hd => ?_
    cases hp : ClientData.parse payload with
    | error e =>
      rw [hp] at hd
      cases hd
    | ok data =>
      rw [hp] at hd
      exact SessionContext.version_setClientData hd

theorem onPackResponse (h : s.Routine) (r : Client.PackResponse) : s.RunsOn (s.onPackResponse r) := by
  unfold Session.onPackResponse
  split
  · exact h.runsOn
  · split
    · exact runsOn_fail s _
    · split
      · exact runsOn_fail s _
      · refine h.plan ?_ ⟨rfl, rfl⟩ fun hs => ⟨hs, rfl⟩
        simp [Act.IsRoutine, Client.Packet.kind]

/-- Where the session forwards, it is no longer the handshake. -/
theorem forwards {t : Session} (todo : ∀ a ∈ t.todo, a.IsRoutine)
    (lanes : ∀ p ∈ t.downward ++ t.notices, p.kind ≠ .networkSettings) (hs : t.stage = .forwarding) :
    s.RunsOn t :=
  ⟨⟨todo, lanes⟩, fun ht => nomatch hs.symm.trans ht⟩

theorem onClientPacket (h : s.Routine) (hs : s.stage = .forwarding) (now : Nat) (p : Client.Packet) :
    s.RunsOn (s.onClientPacket now p) := by
  unfold Session.onClientPacket
  split
  · exact runsOn_fail s _
  · refine RunsOn.awaitClient ?_ now
    exact forwards h.todo h.lanes hs

theorem onBackendPacket (h : s.Routine) (hs : s.stage = .forwarding) {m : Mappings}
    (hc : s.converters = .standard m) (p : Backend.Packet) : s.RunsOn (s.onBackendPacket p) := by
  unfold Session.onBackendPacket
  split
  · exact runsOn_fail s _
  · next hp =>
    refine forwards h.todo (fun q hq => ?_) hs
    rcases List.mem_append.mp hq with hq | hq
    · rw [hc] at hq
      have hkind : p.kind ≠ .disconnect := by
        cases p <;> simp_all [Backend.Packet.kind]
      exact (Converters.standard_shows m _ _ hkind q hq).kind_ne rfl
    · exact h.lanes q (List.mem_append_right _ hq)

theorem onCommand (h : s.Routine) (hs : s.stage = .forwarding) (k : SessionCommand) :
    s.RunsOn (s.onCommand k) := by
  cases k with
  | close reason => exact runsOn_fail s _
  | sendMessage text =>
    refine forwards h.todo (fun q hq => ?_) hs
    rcases List.mem_append.mp hq with hq | hq
    · exact h.lanes q (List.mem_append_left _ hq)
    · rw [List.mem_singleton.mp hq]
      exact nofun

theorem onDone (h : s.Routine) {a : Act} {rest : List Act} (ht : s.todo = a :: rest)
    (hr : ∀ u, a = .register u → s.stage ≠ .handshake) (now : Nat) : s.RunsOn (s.onDone now) := by
  have hrest : ∀ b ∈ rest, b.IsRoutine := fun b hb => h.todo b (by simp [ht, hb])
  unfold Session.onDone
  rw [ht]
  dsimp only
  split
  · refine RunsOn.settle ?_ now
    exact h.plan hrest ⟨rfl, rfl⟩ fun hs => ⟨hs, rfl⟩
  · exact ⟨⟨hrest, h.lanes⟩, nofun⟩
  · refine RunsOn.settle ?_ now
    refine ⟨⟨fun b hb => ?_, h.lanes⟩, fun hs => absurd hs (hr _ rfl)⟩
    obtain ⟨p, -, rfl⟩ := List.mem_map.mp hb
    trivial
  · refine RunsOn.settle ?_ now
    exact h.plan hrest ⟨rfl, rfl⟩ fun hs => ⟨hs, rfl⟩

theorem onFailed (h : s.Routine) (e : GatewayError) : s.RunsOn (s.onFailed e) := by
  unfold Session.onFailed
  split
  · next hs =>
    exact ⟨⟨fun a ha => h.todo a (List.mem_of_mem_tail ha), h.lanes⟩, fun ht => nomatch hs.symm.trans ht⟩
  · exact runsOn_fail s e

end Routine

/-- The handshake goes on with this, now that the version is known. -/
structure Settles (s : Session) (todo : List Act) : Prop where
  todo : s.todo = todo
  stage : s.stage = .handshake
  version : s.context.version ≠ none
  lanes : ∀ p ∈ s.downward ++ s.notices, p.kind ≠ .networkSettings

/-- The settings are to be sent, and the threshold is to be set then. -/
def Answering (s : Session) : Prop := s.Settles [.tell (.networkSettings s.threshold), .compress s.threshold]

/-- The client requests the settings for the first time, and for a version that is spoken here. -/
structure Requested (s : Session) (e : Event) : Prop where
  stage : s.stage = .handshake
  version : s.context.version = none
  request : ∃ n v, e = .client (.ok (.requestNetworkSettings n)) ∧ Client.Version.select? n = some v

theorem UnderWay.joins {s : Session} (h : s.UnderWay) {u : String} {rest : List Act}
    (ht : s.todo = .register u :: rest) : s.stage = .joining := by
  obtain ⟨ps, tail, hps, hp, ha⟩ := h.agenda
  rw [ht] at hps
  cases ps with
  | cons b ps =>
    obtain ⟨rfl, -⟩ := List.cons.inj hps
    exact (hp _ List.mem_cons_self).elim
  | nil =>
    rw [List.nil_append] at hps
    subst hps
    generalize s.stage = stage at ha ⊢
    generalize s.lifecycle = life at ha
    generalize s.linked = linked at ha
    generalize s.registered = registered at ha
    cases ha
    rfl

namespace Routine

variable {s : Session}

/-- Every request but the first supported one is passed over or refused. -/
theorem onSettingsRequest (h : s.Routine) (hs : s.stage = .handshake) (n : UInt32) :
    s.RunsOn (s.onSettingsRequest n) ∨
      s.Requested (.client (.ok (.requestNetworkSettings n))) ∧ (s.onSettingsRequest n).Answering := by
  unfold Session.onSettingsRequest
  split
  · exact .inl h.runsOn
  · next v hv hn => exact .inr ⟨⟨hs, hv, n, v, rfl, hn⟩, rfl, hs, nofun, h.lanes⟩
  · exact .inl (h.plan (List.forall_mem_singleton.mpr nofun) ⟨rfl, rfl⟩ nofun)

theorem onHandshake (h : s.Routine) (hs : s.stage = .handshake) (p : Client.Packet) :
    s.RunsOn (s.onHandshake p) ∨
      s.Requested (.client (.ok p)) ∧ (s.onHandshake p).Answering := by
  unfold Session.onHandshake
  split
  · exact h.onSettingsRequest hs _
  · exact .inl (h.onLogin _ _)
  · exact .inl (h.onClientData _)
  · exact .inl (h.onPackResponse _)
  · exact .inl (h.onGated _)

/-- Whatever happens, the session runs on, unless it is to answer the first supported request. -/
theorem handle (h : s.Routine) {m : Mappings} (hc : s.converters = .standard m)
    (hs : s.stage = .handshake → s.UnderWay) {e : Event} (ha : s.admits e) (now : Nat) :
    s.RunsOn (s.handle now e) ∨ s.Requested e ∧ (s.handle now e).Answering := by
  cases e with
  | shutdown => exact .inl (runsOn_fail s _)
  | timeUp => exact .inl (runsOn_fail s _)
  | client r =>
    cases r with
    | error err => exact .inl (runsOn_fail s _)
    | ok p =>
      simp only [Session.handle]
      split
      · next hstage => exact h.onHandshake hstage p
      · next hstage => exact .inl (h.onClientPacket hstage now p)
      · exact .inl (h.onGated p)
  | connected r =>
    cases r with
    | error err => exact .inl (runsOn_fail s _)
    | ok u =>
      refine .inl ⟨⟨by simp [Session.handle, Act.IsRoutine], h.lanes⟩, fun ht => ?_⟩
      cases ht
  | backend r =>
    cases r with
    | error err => exact .inl (runsOn_fail s _)
    | ok p => exact .inl (h.onBackendPacket (admits_backend ha).1 hc p)
  | command k => exact .inl (h.onCommand (admits_command ha).1 k)
  | done lane r =>
    cases r with
    | error err => exact .inl (h.onFailed err)
    | ok u =>
      cases lane with
      | main =>
        obtain ⟨a, hn, -⟩ := admits_done ha
        obtain ⟨rest, ht⟩ := List.head?_eq_some_iff.mp hn
        refine .inl (h.onDone ht (fun u hu hstage => ?_) now)
        have hjoin := (hs hstage).joins (hu ▸ ht)
        cases hstage.symm.trans hjoin
      | toBackend =>
        refine .inl (RunsOn.awaitClient ?_ now)
        exact h.plan h.todo ⟨rfl, rfl⟩ fun hstage => ⟨hstage, rfl⟩
      | toClient =>
        refine .inl ⟨⟨h.todo, fun p hp => ?_⟩, fun hstage => ⟨hstage, rfl⟩⟩
        rcases List.mem_append.mp hp with hp | hp
        · exact h.lanes p (List.mem_append_left _ (List.mem_of_mem_tail hp))
        · exact h.lanes p (List.mem_append_right _ hp)
      | commands =>
        refine .inl ⟨⟨h.todo, fun p hp => ?_⟩, fun hstage => ⟨hstage, rfl⟩⟩
        rcases List.mem_append.mp hp with hp | hp
        · exact h.lanes p (List.mem_append_left _ hp)
        · exact h.lanes p (List.mem_append_right _ (List.mem_of_mem_tail hp))

end Routine

namespace Settles

variable {s : Session} {a : Act} {rest : List Act}

theorem routine (h : s.Settles []) : s.Routine :=
  ⟨by rw [h.todo]; exact nofun, h.lanes⟩

/-- The session goes on to what is left, or the attempt has failed or has taken too long. -/
theorem handle (h : s.Settles (a :: rest)) (hw : s.UnderWay) (plain : a.IsPlain) {e : Event}
    (ha : s.admits e) (now : Nat) :
    e = .done .main (.ok ()) ∧ (s.handle now e).Settles rest ∨
      (e = .timeUp ∨ a.canFail ∧ ∃ err, e = .done .main (.error err)) ∧ s.RunsOn (s.handle now e) := by
  have hstage := h.stage
  have htodo := h.todo
  obtain ⟨hup, hdown, hnotices⟩ := hw.lanes (by simp [hstage])
  cases e with
  | shutdown => rcases admits_shutdown ha with ⟨-, hnil⟩ | hs <;> simp_all
  | timeUp => exact .inr ⟨.inl rfl, runsOn_fail s _⟩
  | client r => rcases admits_client ha with ⟨-, hnil⟩ | ⟨hs, -⟩ <;> simp_all
  | connected r => simp [(admits_connected ha).1] at hstage
  | backend r => simp [(admits_backend ha).1] at hstage
  | command k => simp [(admits_command ha).1] at hstage
  | done lane r =>
    obtain ⟨b, hn, hr⟩ := admits_done ha
    cases lane with
    | toBackend => simp [next?, hup] at hn
    | toClient => simp [next?, hdown] at hn
    | commands => simp [next?, hnotices] at hn
    | main =>
      obtain rfl : a = b := by simpa [next?, htodo] using hn
      cases r with
      | error err =>
        have hfail : a.canFail := by simpa using hr
        refine .inr ⟨.inr ⟨hfail, err, rfl⟩, ?_⟩
        simp only [Session.handle, onFailed, hstage]
        exact runsOn_fail s err
      | ok u =>
        refine .inl ⟨rfl, ?_⟩
        have heq : s.handle now (.done .main (.ok ())) = { s with todo := rest } := by
          simp [Session.handle, onDone_of_isPlain htodo plain, settle, hstage]
        rw [heq]
        exact ⟨rfl, hstage, h.version, h.lanes⟩

/-- What is done for the session is what comes first. -/
theorem did (h : s.Settles (a :: rest)) (hw : s.UnderWay) (plain : a.IsPlain) {lane : Lane} {b : Act}
    {r : Except GatewayError Unit} (hn : s.next? lane = some b) (ha : s.admits (.done lane r)) (now : Nat) :
    b = a ∧ (r = .ok () ∧ (s.handle now (.done lane r)).Settles rest ∨
      a.canFail ∧ (∃ err, r = .error err) ∧ s.RunsOn (s.handle now (.done lane r))) := by
  have hfirst (hlane : lane = .main) : b = a := by
    rw [hlane, next?_main h.todo] at hn
    exact (Option.some.inj hn).symm
  obtain ⟨heq, hsettles⟩ | ⟨heq | ⟨hfail, err, heq⟩, hruns⟩ := h.handle hw plain ha now
  · obtain ⟨hlane, hr⟩ := Event.done.inj heq
    exact ⟨hfirst hlane, .inl ⟨hr, hsettles⟩⟩
  · cases heq
  · obtain ⟨hlane, hr⟩ := Event.done.inj heq
    exact ⟨hfirst hlane, .inr ⟨hfail, ⟨err, hr⟩, hruns⟩⟩

end Settles

end Session
end EditionGateway
