import EditionGateway.Gateway.InProcess
import EditionGateway.Proofs.Gateway.Waiting

/-!
A client that chatters while the backend is being reached changes nothing about how linking ends, and one
that chatters instead of going on with its handshake gains no time: `Vigil.chatter_changes_nothing`.

The attempt to reach the backend takes any time, or for ever, and has any result. The packets come whenever
they like, and bring neither a disconnect nor an error. What becomes of the session is the same for all of
them, because it is told without them: the result of the attempt if it takes no longer than linking may,
and that the time is up otherwise.
-/

namespace EditionGateway

open Notes

/-- How long linking takes with an attempt that takes this long, and what comes of it. -/
def linkingResult (limit : Duration) : Attempt → Nat × Except BackendError Unit
  | some (delay, r) => if delay ≤ limit.nanos then (delay, r) else (limit.nanos, .error (.timedOut limit))
  | none => (limit.nanos, .error (.timedOut limit))

namespace Session

variable {s : Session}

/-- What becomes of a session that begins to link. -/
def toLink (s : Session) (began : Nat) : Session :=
  { s with todo := [], stage := .linking, deadline := began + s.settings.linkingTimeout.nanos }

/-- That its time is up is an error of the attempt to a session that links. -/
theorem verdict_toLink (s : Session) (began : Nat) (answer : Attempt) :
    let result := linkingResult s.settings.linkingTimeout answer
    let verdict := (s.toLink began).verdict (answer.map fun x => (began + x.1, x.2))
    verdict.1 = began + result.1 ∧ ∀ now,
      (s.toLink began).handle now verdict.2 = (s.toLink began).handle now (.connected result.2) := by
  match answer with
  | none => exact ⟨rfl, fun _ => rfl⟩
  | some (delay, r) =>
    simp only [linkingResult, Option.map_some, verdict, toLink, Nat.add_le_add_iff_left]
    by_cases h : delay ≤ s.settings.linkingTimeout.nanos
    · rw [if_pos h, if_pos h]
      exact ⟨rfl, fun _ => rfl⟩
    · rw [if_neg h, if_neg h]
      exact ⟨rfl, fun _ => rfl⟩

theorem UnderWay.nextAct_eq_none (h : s.UnderWay) {t : Session} (hs : s.stage ≠ .forwarding)
    (ht : t.todo = []) (hu : t.upward = s.upward) (hd : t.downward = s.downward)
    (hn : t.notices = s.notices) : Host.nextAct t = none := by
  obtain ⟨hu', hd', hn'⟩ := h.lanes hs
  simp [Host.nextAct, next?, ht, hu, hd, hn, hu', hd', hn']

theorem waits_toLink {σ : Type} (shows : σ → Outlook → Prop) (attempt : Attempt) (hu : s.UnderWay)
    (hs : s.stage = .handshake) (began : Nat) :
    (s.toLink began).Waits ⟨shows, attempt, (·.kind ≠ .disconnect)⟩ where
  stage := .inl rfl
  idle := hu.nextAct_eq_none (by simp [hs]) rfl rfl rfl rfl
  echoes _ hp := echoes_of_linking rfl rfl hp

theorem waits_handshake {σ : Type} (shows : σ → Outlook → Prop) (hu : s.UnderWay)
    (hs : s.stage = .handshake) (ht : s.todo = []) : s.Waits ⟨shows, none, s.Disregards⟩ where
  stage := .inr ⟨hs, rfl⟩
  idle := hu.nextAct_eq_none (by simp [hs]) ht rfl rfl rfl
  echoes _ hp := echoes_of_disregards hs ht hp

end Session

/-! ### Links in memory -/

/-- What comes of an attempt, as soon as it is made. -/
def BackendMode.result? : BackendMode → Option (Except BackendError Unit)
  | .accepts => some (.ok ())
  | .hangs => none
  | .fails e => some (.error e)

namespace InProcess

/-- The packets wait at the gateway's end of a link that nobody has closed. -/
structure Shows (id : SessionId) (n : InProcess) (o : Outlook) : Prop where
  client : ∃ l, n.clients.get? id = some l ∧ l.link.closed = false ∧ l.link.first.ended = false ∧
    l.link.second.gone = false ∧ l.link.first.packets.map Client.Packet.shape.decode = o.packets.map .ok
  link : n.mode.result? = o.link

theorem onClient_eq {α : Type} {n : InProcess} {id : SessionId} {c : InProcessLink}
    (hc : n.clients.get? id = some c) (f : InProcessLink → α × InProcessLink) : ∃ m,
      onClient id f n = ((f c).1, m) ∧ m.clients.get? id = some (f c).2 ∧ m.mode = n.mode := by
  refine ⟨{ n with clients := n.clients.modify id fun _ => (f c).2 }, ?_, ?_, rfl⟩
  · simp [onClient, hc]
  · simp [Table.get?_modify, hc]

/-- Links in memory work as long as nobody closes them. -/
theorem serves (id : SessionId) : Network.Serves id (Shows id) where
  quiet := by
    rintro n l ⟨⟨c, hc, hopen, hthere, hpeer, hpackets⟩, hlink⟩
    obtain ⟨m, hm, hclient, hmode⟩ := onClient_eq hc (·.receive .first)
    have hnil : c.link.first.packets = [] := List.map_eq_nil_iff.mp hpackets
    have hreceive : c.receive .first = (none, c) := by
      simp [InProcessLink.receive, MemoryLink.receive, MemoryLink.look, MemoryLink.take, MemoryLink.inbox,
        hnil, hopen, hthere]
    simp only [hreceive] at hm hclient
    exact ⟨m, hm, ⟨c, hclient, hopen, hthere, hpeer, hpackets⟩, hmode ▸ hlink⟩
  packet := by
    rintro n p ps l ⟨⟨c, hc, hopen, hthere, hpeer, hpackets⟩, hlink⟩
    obtain ⟨m, hm, hclient, hmode⟩ := onClient_eq hc (·.receive .first)
    obtain ⟨b, bs, hbs, hb, hrest⟩ := List.map_eq_cons_iff.mp hpackets
    have hreceive : c.receive .first = (some (.packet b),
        { c with link := { c.link with first := { c.link.first with packets := bs } } }) := by
      simp [InProcessLink.receive, MemoryLink.receive, MemoryLink.look, MemoryLink.take, MemoryLink.inbox,
        MemoryLink.setInbox, hbs]
    simp only [hreceive] at hm hclient
    exact ⟨b, m, hm, hb, ⟨_, hclient, hopen, hthere, hpeer, hrest⟩, hmode ▸ hlink⟩
  sent := by
    rintro n o b ⟨⟨c, hc, hopen, hthere, hpeer, hpackets⟩, hlink⟩
    obtain ⟨m, hm, hclient, hmode⟩ := onClient_eq hc (·.send .first b)
    have hsend : c.send .first b = (.ok (), { c with link := { c.link with second := { c.link.second with
        packets := c.link.second.packets ++ [b] } } }) := by
      simp [InProcessLink.send, MemoryLink.send, MemoryLink.check, MemoryLink.push, MemoryLink.inbox,
        MemoryLink.setInbox, LinkEnd.other, hopen, hpeer]
      rfl
    simp only [hsend] at hm hclient
    exact ⟨m, hm, ⟨_, hclient, hopen, hthere, hpeer, hpackets⟩, hmode ▸ hlink⟩
  pending := by
    rintro n ps ⟨hclient, hlink⟩
    have hmode : n.mode = .hangs := by
      cases hm : n.mode <;> simp [hm, BackendMode.result?] at hlink ⊢
    exact ⟨n, by simp [Network.connected, hmode], hclient, hlink⟩
  finished := by
    rintro n ps r ⟨hclient, hlink⟩
    cases hm : n.mode with
    | hangs => simp [hm, BackendMode.result?] at hlink
    | accepts =>
      obtain rfl : .ok () = r := by simpa [hm, BackendMode.result?] using hlink
      exact ⟨_, by simp only [Network.connected, hm]; rfl⟩
    | fails e =>
      obtain rfl : .error e = r := by simpa [hm, BackendMode.result?] using hlink
      exact ⟨n, by simp [Network.connected, hm]⟩

end InProcess

/-! ### Linking, and the handshake -/

namespace Vigil

variable {σ : Type} [Network σ] {id : SessionId} {shows : σ → Outlook → Prop} {answer : Attempt}
  {s : Session} {v : Vigil σ}

/-- At this time a session begins to link, by connecting to the backend, and then nothing disturbs it. The
attempt takes some time from then on and has some result, or it never ends. -/
inductive Linking (id : SessionId) (shows : σ → Outlook → Prop) (answer : Attempt) (s : Session)
    (began : Nat) (v : Vigil σ) : Prop
  | intro {h : Host σ} {u : Vigil σ} (hs : h.session? id = some s) (time : h.now = began)
      (connects : Acts id ⟨h, []⟩ u)
      (run : Run id ⟨shows, answer.map fun x => (began + x.1, x.2), (·.kind ≠ .disconnect)⟩ .linking u v)

/-- A session is in its handshake, and its client sends nothing that brings the handshake on. -/
inductive Stalling (id : SessionId) (shows : σ → Outlook → Prop) (s : Session) (v : Vigil σ) : Prop
  | intro {h : Host σ} (hs : h.session? id = some s)
      (run : Run id ⟨shows, none, s.Disregards⟩ .handshake ⟨h, []⟩ v)

theorem Acts.connect {h : Host σ} {u : Vigil σ} (ha : Acts id ⟨h, []⟩ u) (hs : h.session? id = some s)
    {c : Credentials} (ht : s.todo = [.connect c]) :
    u.host.session? id = some (s.toLink h.now) ∧ u.notes = [.did .main (.connect c) (.ok ())] := by
  cases ha with
  | step hseat hk he =>
    rename_i seat e
    have hsession : seat.session = s := by
      rw [Host.session?, hseat] at hs
      exact Option.some.inj hs
    have hnext : Host.nextAct seat.session = some (.main, .connect c) := by
      simp [Host.nextAct, Session.next?, hsession, ht]
    have hperform : h.perform id seat (.connect c) =
        (.ok (), { h with network := Network.connect id c h.network }) := rfl
    have hafter := Host.session?_handle (h := { h with network := Network.connect id c h.network })
      (Option.isSome_iff_exists.mpr ⟨seat, hseat⟩) seat (.done .main (.ok ()))
    have hhandle : seat.session.handle h.now (.done .main (.ok ())) = s.toLink h.now := by
      rw [hsession]
      exact Session.onDone_connect ht
    obtain ⟨hstep, hhappening⟩ :=
      Host.step_of_act hnext hperform (by rw [hafter]; exact congrArg Session.ending? hhandle)
    obtain rfl := (Prod.mk.inj (hk.symm.trans hstep)).2
    obtain rfl := Option.some.inj (he.symm.trans hhappening)
    exact ⟨hafter.trans (congrArg some hhandle), hsession ▸ Session.noted_main ht _⟩

theorem Linking.settles (serves : Network.Serves id shows) (hu : s.UnderWay) (hs : s.stage = .handshake)
    {c : Credentials} (ht : s.todo = [.connect c]) {began : Nat} (h : Linking id shows answer s began v) :
    let result := linkingResult s.settings.linkingTimeout answer
    v.Settles id (s.toLink began) ((s.toLink began).handle (began + result.1) (.connected result.2))
      (began + result.1) [.connect c] := by
  cases h with
  | intro hsession htime connects run =>
    subst htime
    rename_i h u
    obtain ⟨hlink, hnotes⟩ := connects.connect hsession ht
    have hechoed : Echoed [.connect c] [] u.notes := hnotes ▸ ⟨rfl, rfl⟩
    have hsettles := run.settles serves (Session.waits_toLink shows _ hu hs h.now) hlink hechoed
    obtain ⟨htime, hhandle⟩ := s.verdict_toLink h.now answer
    rw [Session.afterVerdict, hhandle, htime] at hsettles
    exact hsettles

theorem Stalling.settles (serves : Network.Serves id shows) (hu : s.UnderWay) (hs : s.stage = .handshake)
    (ht : s.todo = []) (h : Stalling id shows s v) :
    v.Settles id s (s.fail (.handshakeTimeout s.settings.handshakeTimeout)) s.deadline [] := by
  cases h with
  | intro hsession run =>
    have hechoed : Echoed [] [] [] := ⟨rfl, rfl⟩
    have hsettles := (hs ▸ run).settles serves (Session.waits_handshake shows hu hs ht) hsession hechoed
    have hfail : s.afterVerdict none = s.fail (.handshakeTimeout s.settings.handshakeTimeout) := by
      simp only [Session.afterVerdict, Session.verdict, Session.handle, Session.timeoutError, hs]
    exact hfail ▸ hsettles

/-! ### A client that asks for an echo -/

/-- A network with one client, which has sent these packets. -/
def wire (mode : BackendMode) (ps : List Client.Packet) (attempts : List String) : InProcess where
  mode
  clients := [(⟨1⟩, { link := { first := { packets := ps.map Client.Packet.shape.write } } })]
  attempts

/-- A gateway with this session only. -/
def sole (s : Session) (network : InProcess) (now : Nat) : Host InProcess where
  config := {}
  converters := .standard {}
  network
  seats := [(⟨1⟩, { session := s, address := "127.0.0.1:1", channel := 0 })]
  now

theorem calm_sole {mode : BackendMode} {ps : List Client.Packet} {attempts : List String} {now : Nat}
    {sends : Client.Packet → Prop} (early : now ≤ s.deadline)
    (undue : ∀ time r, answer = some (time, r) → now ≤ time) (sent : ∀ p ∈ ps, sends p)
    (link : mode.result? = attemptBy answer now)
    (packets : (ps.map Client.Packet.shape.write).map Client.Packet.shape.decode = ps.map .ok) :
    Scene.Calm ⟨InProcess.Shows ⟨1⟩, answer, sends⟩ s.deadline ps (sole s (wire mode ps attempts) now) where
  running := rfl
  early
  undue
  sent
  shown := ⟨⟨_, rfl, rfl, rfl, rfl, packets⟩, link⟩

/-- A session that these events have happened to. -/
def led (es : List Event) : Session :=
  ((Course.start {} (.standard {}) ⟨1⟩ 0).after (es.map (0, ·))).session

/-- A session that is about to connect. -/
def ready : Session := led (Course.welcomed.take 12)

/-- A session that waits for its client to say something. -/
def fresh : Session := led (Course.welcomed.take 1)

def probe : Client.Packet := .networkStackLatency 5 true

theorem run_ready (ps : List Client.Packet) (sent : ∀ p ∈ ps, p.kind ≠ .disconnect)
    (packets : (ps.map Client.Packet.shape.write).map Client.Packet.shape.decode = ps.map .ok) :
    let u : Vigil InProcess := ⟨sole (ready.toLink 0) (wire .hangs ps ["Steve"]) 0,
      [.did .main (.connect ⟨"Steve", ⟨0, 0⟩, "", ""⟩) (.ok ())]⟩
    Run ⟨1⟩ ⟨InProcess.Shows ⟨1⟩, some (1000, .ok ()), (·.kind ≠ .disconnect)⟩ .linking u u :=
  .start rfl (calm_sole (Nat.zero_le _) (fun _ _ _ => Nat.zero_le _) sent rfl packets)

theorem calm_ready :
    Scene.Calm ⟨InProcess.Shows ⟨1⟩, some (1000, .ok ()), (·.kind ≠ .disconnect)⟩ (ready.toLink 0).deadline []
      (sole (ready.toLink 0) (wire .accepts [] []) 1000) :=
  calm_sole (by decide) (by rintro _ _ ⟨⟩; exact Nat.le_refl _) nofun rfl rfl

theorem linking_probe : ∃ v, Linking ⟨1⟩ (InProcess.Shows ⟨1⟩) (some (1000, .ok ())) ready 0 v ∧
    reads v.notes = [probe] ∧ ∃ x, v.host.session? ⟨1⟩ = some x ∧ x.stage = .joining := by
  have echoed := ((run_ready [probe] (by simp [probe, Client.Packet.kind]) rfl).acts ⟨_, rfl, rfl⟩
    (.step rfl rfl rfl)).acts ⟨_, rfl, rfl⟩ (.step rfl rfl rfl)
  have joined := (echoed.change (k := sole (ready.toLink 0) (wire .accepts [] []) 1000) rfl rfl rfl
    (Nat.zero_le _) calm_ready).acts ⟨_, rfl, rfl⟩ (.step rfl rfl rfl)
  exact ⟨_, .intro (h := sole ready (wire .hangs [probe] []) 0) rfl rfl (.step rfl rfl rfl) joined,
    rfl, _, rfl, rfl⟩

theorem linking_silence : ∃ v, Linking ⟨1⟩ (InProcess.Shows ⟨1⟩) (some (1000, .ok ())) ready 0 v ∧
    reads v.notes = [] ∧ ∃ x, v.host.session? ⟨1⟩ = some x ∧ x.stage = .joining := by
  have joined := ((run_ready [] nofun rfl).change (k := sole (ready.toLink 0) (wire .accepts [] []) 1000)
    rfl rfl rfl (Nat.zero_le _) calm_ready).acts ⟨_, rfl, rfl⟩ (.step rfl rfl rfl)
  exact ⟨_, .intro (h := sole ready (wire .hangs [] []) 0) rfl rfl (.step rfl rfl rfl) joined,
    rfl, _, rfl, rfl⟩

theorem stalling_probe : ∃ v, Stalling ⟨1⟩ (InProcess.Shows ⟨1⟩) fresh v ∧
    reads v.notes = [probe] ∧ ∃ x, v.host.session? ⟨1⟩ = some x ∧ x.stage ≠ .handshake := by
  have start : let u : Vigil InProcess := ⟨sole fresh (wire .hangs [probe] []) 0, []⟩
      Run ⟨1⟩ ⟨InProcess.Shows ⟨1⟩, none, fresh.Disregards⟩ .handshake u u :=
    .start rfl (calm_sole (Nat.zero_le _) nofun (by simp [probe, Session.Disregards]) rfl rfl)
  have later : Scene.Calm ⟨InProcess.Shows ⟨1⟩, none, fresh.Disregards⟩ fresh.deadline []
      (sole fresh (wire .hangs [] []) 10000000000) :=
    calm_sole (by decide) nofun nofun rfl rfl
  have echoed := (start.acts ⟨_, rfl, rfl⟩ (.step rfl rfl rfl)).acts ⟨_, rfl, rfl⟩ (.step rfl rfl rfl)
  have ended := (echoed.change (k := sole fresh (wire .hangs [] []) 10000000000) rfl rfl rfl
    (Nat.zero_le _) later).acts ⟨_, rfl, rfl⟩ (.step rfl rfl rfl)
  exact ⟨_, .intro rfl ended, rfl, _, rfl, nofun⟩

/-! ### What chatter changes -/

/-- However a client chatters while the backend is being reached, the same comes of the attempt at the same
time: its result if there is one before the time for linking is up, and that the time is up otherwise. The
client is told nothing but the answers to its latency probes. In the handshake no packet that does not bring
it on puts its end off. -/
theorem chatter_changes_nothing (serves : Network.Serves id shows) (config : GatewayConfig)
    (mappings : Mappings) (start : Nat) (es : List (Nat × Event))
    (hs : s = ((Course.start config (.standard mappings) id start).after es).session)
    (handshake : s.stage = .handshake) :
    (∀ c began answer (v w : Vigil σ), s.todo = [.connect c] →
      Linking id shows answer s began v → Linking id shows answer s began w →
      let limit := config.session.linkingTimeout
      let result := linkingResult limit answer
      let waiting := { s with todo := [], stage := .linking, deadline := began + limit.nanos }
      v.Settles id waiting (waiting.handle (began + result.1) (.connected result.2)) (began + result.1)
          [.connect c] ∧
        ∀ x y, v.host.session? id = some x → w.host.session? id = some y → x.stage ≠ .linking →
          y.stage ≠ .linking → v.host.now = w.host.now ∧ x = y) ∧
    ∀ v : Vigil σ, s.todo = [] → Stalling id shows s v →
      let limit := config.session.handshakeTimeout
      v.Settles id s (s.fail (.handshakeTimeout limit)) (start + limit.nanos) [] := by
  have hunder : s.UnderWay := hs ▸ (Course.orderly_after config (Converters.standard_discreet mappings) id
    start es).underWay (by simp [← hs, handshake])
  obtain ⟨hsettings, hdeadline⟩ := Course.deadline_after config mappings id start es
  rw [← hs] at hsettings hdeadline
  rw [← hsettings] at hdeadline ⊢
  constructor
  · intro c began answer v w ht hv hw
    have hvs := hv.settles serves hunder handshake ht
    have hws := hw.settles serves hunder handshake ht
    exact ⟨hvs, fun x y hx hy hxs hys => (hvs.ends hx hxs).unique (hws.ends hy hys) hx hy⟩
  · intro v ht hv
    have hvs := hv.settles serves hunder handshake ht
    rw [hdeadline handshake] at hvs
    exact hvs

/-- A client asks for an echo while the backend is being reached, or does not, and one that does so never
goes on with its handshake. -/
theorem chatter_changes_nothing_of_probe :
    (∃ v w, Linking ⟨1⟩ (InProcess.Shows ⟨1⟩) (some (1000, .ok ())) ready 0 v ∧
        Linking ⟨1⟩ (InProcess.Shows ⟨1⟩) (some (1000, .ok ())) ready 0 w ∧
        reads v.notes = [probe] ∧ reads w.notes = [] ∧ v.host.now = w.host.now ∧
        ∃ x, v.host.session? ⟨1⟩ = some x ∧ w.host.session? ⟨1⟩ = some x ∧ x.stage = .joining) ∧
      ∃ v, Stalling ⟨1⟩ (InProcess.Shows ⟨1⟩) fresh v ∧ reads v.notes = [probe] ∧
        v.Ends ⟨1⟩ (fresh.fail (.handshakeTimeout (.ofMillis 10000))) 10000000000 [] := by
  constructor
  · obtain ⟨v, hv, hreads, x, hx, hxs⟩ := linking_probe
    obtain ⟨w, hw, hreads', y, hy, hys⟩ := linking_silence
    have h := (chatter_changes_nothing (InProcess.serves ⟨1⟩) {} {} 0
      ((Course.welcomed.take 12).map (0, ·)) (s := ready) rfl rfl).1 _ 0 _ v w rfl hv hw
    obtain ⟨htime, rfl⟩ := h.2 x y hx hy (by simp [hxs]) (by simp [hys])
    exact ⟨v, w, hv, hw, hreads, hreads', htime, x, hx, hy, hxs⟩
  · obtain ⟨v, hv, hreads, x, hx, hxs⟩ := stalling_probe
    have h := (chatter_changes_nothing (InProcess.serves ⟨1⟩) {} {} 0
      ((Course.welcomed.take 1).map (0, ·)) (s := fresh) rfl rfl).2 v rfl hv
    exact ⟨v, hv, hreads, h.ends hx hxs⟩

end Vigil
end EditionGateway
