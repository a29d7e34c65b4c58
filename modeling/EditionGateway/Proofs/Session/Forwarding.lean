import EditionGateway.Proofs.Session.Dues
import EditionGateway.Proofs.Session.Establishment

/-!
An established session passes on all that it owes, in order: to the backend what its client says, to the
client what the backend says and what others have it say. Only when it ends is something cut short, and
then only the end of what was on its way.
-/

namespace EditionGateway

open Notes

namespace Converters

theorem upward_eq (t : Converters) (stats : ConversionStats) (c : SessionContext)
    (p : Client.Packet) : (t.dispatchToBackend stats c p).packets = (t.upward c p).1 ∧
      (t.dispatchToBackend stats c p).context = (t.upward c p).2 :=
  Conversion.apply_stats ..

theorem downward_eq (t : Converters) (stats : ConversionStats) (c : SessionContext)
    (p : Backend.Packet) : (t.dispatchToClient stats c p).packets = (t.downward c p).1 ∧
      (t.dispatchToClient stats c p).context = (t.downward c p).2 :=
  Conversion.apply_stats ..

end Converters

/-- A session that forwards, with what it owes by the notes since it was established. -/
structure Flow (t : Converters) (c : SessionContext) (s : Session) (m : Notes) : Prop where
  stage : s.stage = .forwarding
  todo : s.todo = []
  context : s.context = (Ledger.ofNotes t c m).context
  owes : Owes t c m s.upward s.downward s.notices

/-- How far an established session has come in passing on what it owes, by the notes since it was
established. `last` is its farewell. -/
inductive Delivery (t : Converters) (c : SessionContext) (s : Session) (m : Notes) : Prop
  | registering (u : String) (stage : s.stage = .joining) (todo : s.todo = [.register u])
      (context : s.context = c) (ledger : Ledger.ofNotes t c m = .start t c)
      (owes : Owes t c m (t.upward c (.requestChunkRadius c.chunkRadius)).1 [] [])
  | opening (ps : List Backend.Packet) (stage : s.stage = .joining) (todo : s.todo = ps.map .ask)
      (context : s.context = (Ledger.ofNotes t c m).context) (owes : Owes t c m ps [] [])
  | forwarding (flow : Flow t c s m)
  | ending (e : GatewayError) (before last : List Client.Packet) (stage : s.stage = .ending e)
      (paid : Paid (Ledger.ofNotes t c m) { sent m with told := before }) (told : told m = before ++ last)
      (farewell : (last ++ s.todo.filterMap Act.told?).Sublist
        [.farewell e.disconnectReason.message])

namespace Delivery

variable {t : Converters} {c : SessionContext} {s : Session} {m : Notes}

/-- A session that ends leaves the rest unpaid. -/
theorem fail {up : List Backend.Packet} {down notices : List Client.Packet}
    (h : Owes t c m up down notices) (s : Session) (e : GatewayError) : Delivery t c (s.fail e) m := by
  refine .ending e (told m) [] rfl h.paid (List.append_nil _).symm ?_
  show ([] ++ (s.teardown e).filterMap Act.told?).Sublist _
  rw [List.nil_append, Session.told_teardown]
  split
  · exact List.Sublist.refl _
  · exact List.nil_sublist _

/-- What a session shows neither side hears of. -/
theorem shown (h : Delivery t c s m) (k l : Session) : Delivery t c s (m ++ k.shown l) := by
  have hledger := Ledger.ofNotes_shown t c m k l
  cases h with
  | registering u stage todo context ledger owes =>
    exact .registering u stage todo context (hledger.trans ledger) (owes.shown k l)
  | opening ps stage todo context owes =>
    exact .opening ps stage todo (hledger ▸ context) (owes.shown k l)
  | forwarding flow =>
    exact .forwarding ⟨flow.stage, flow.todo, hledger ▸ flow.context, flow.owes.shown k l⟩
  | ending e before last stage paid told farewell =>
    refine .ending e before last stage (paid.shown k l) ?_ farewell
    rw [told_append, Session.told_shown, List.append_nil, told]

/-- When the settings of the client have been sent, the forwarding begins. -/
theorem settle {ps : List Backend.Packet} (hs : s.stage = .joining) (ht : s.todo = ps.map .ask)
    (hlanes : s.upward = [] ∧ s.downward = [] ∧ s.notices = [])
    (hc : s.context = (Ledger.ofNotes t c m).context) (h : Owes t c m ps [] []) (now : Nat) :
    Delivery t c (s.settle now) m := by
  cases ps with
  | cons p ps =>
    have hself : s.settle now = s := by simp [Session.settle, hs, ht]
    rw [hself]
    exact .opening (p :: ps) hs ht hc h
  | nil =>
    obtain ⟨hu, hd, hn⟩ := hlanes
    have hnext : s.settle now =
        { s with stage := .forwarding, deadline := now + s.settings.idleTimeout.nanos } := by
      simp [Session.settle, Session.awaitClient, hs, ht, hu]
    rw [hnext]
    refine .forwarding ⟨rfl, ht, hc, ?_⟩
    simpa only [hu, hd, hn] using h

/-- While it is being registered and says how it is set, a session hears of nothing but that. -/
theorem joining_cases {s : Session} (h : s.UnderWay) (hs : s.stage = .joining) {e : Event}
    (ha : s.admits e) : ∃ a rest r, e = .done .main r ∧ s.todo = a :: rest := by
  cases e with
  | done lane r =>
    obtain ⟨a, hn, -⟩ := Session.admits_done ha
    by_cases hl : lane = .main
    · subst hl
      obtain ⟨rest, ht⟩ := List.head?_eq_some_iff.mp hn
      exact ⟨a, rest, r, rfl, ht⟩
    · have hf := h.next?_lane hn hl
      rw [hs] at hf
      cases hf
  | _ => simp [Session.admits, Session.awaits, hs] at ha

/-- The registration, when it succeeds, is followed by the settings of the client. -/
theorem registered {u : String} (hs : s.stage = .joining) (ht : s.todo = [.register u])
    (hlanes : s.upward = [] ∧ s.downward = [] ∧ s.notices = []) (hc : s.context = c)
    (hconv : s.converters = t) (hl : Ledger.ofNotes t c m = .start t c)
    (h : Owes t c m (t.upward c (.requestChunkRadius c.chunkRadius)).1 [] []) (now : Nat) :
    Delivery t c (s.onDone now) (m ++ [.did .main (.register u) (.ok ())]) := by
  subst hconv hc
  have hd := s.converters.upward_eq s.stats s.context (.requestChunkRadius s.context.chunkRadius)
  have hmute : (Note.did .main (.register u) (.ok ())).IsMute :=
    Note.isMute_did (by simp [Act.kind]) .main _
  rw [Session.onDone_register ht]
  refine settle (s := ({ s with todo := [], registered := true } : Session).opening) hs ?_ hlanes ?_
    (h.mute hmute) now
  · exact congrArg (List.map Act.ask) hd.1
  · rw [Ledger.ofNotes_concat, hmute.enter, hl]
    exact hd.2

end Delivery

namespace Flow

variable {t : Converters} {c : SessionContext} {s : Session} {m : Notes}

/-- What neither side hears of can only end the forwarding. -/
theorem fail (h : Flow t c s m) {x : Note} (hx : x.IsMute) (e : GatewayError) :
    Delivery t c (s.fail e) (m ++ [x]) :=
  .fail (h.owes.mute hx) s e

theorem awaitClient (h : Flow t c s m) (now : Nat) : Delivery t c (s.awaitClient now) m := by
  unfold Session.awaitClient
  split
  · exact .forwarding ⟨h.stage, h.todo, h.context, h.owes⟩
  · exact .forwarding h

/-- A packet of the client is converted, or ends the session. -/
theorem client (h : Flow t c s m) (ht : s.converters = t) (hu : s.upward = []) (now : Nat)
    (p : Client.Packet) :
    Delivery t c (s.onClientPacket now p) (m ++ [.heard (.client (.ok p))]) := by
  subst ht
  unfold Session.onClientPacket
  split
  · exact h.fail (Note.isMute_heard fun _ _ => rfl) _
  · next hno =>
    have hp : p.kind ≠ .disconnect := by
      intro hk
      cases p <;> simp_all [Client.Packet.kind]
    have hd := s.converters.upward_eq s.stats s.context p
    have howes := h.owes
    rw [hu] at howes
    have hheard := howes.heardClient hp
    rw [← h.context, ← hd.1] at hheard
    refine awaitClient ⟨?_, ?_, ?_, hheard⟩ now
    · exact h.stage
    · exact h.todo
    · rw [Ledger.ofNotes_concat, Ledger.enter, if_neg hp, ← h.context]
      exact hd.2

/-- So is a packet of the backend. -/
theorem backend (h : Flow t c s m) (ht : s.converters = t) (hd : s.downward = [])
    (p : Backend.Packet) :
    Delivery t c (s.onBackendPacket p) (m ++ [.heard (.backend (.ok p))]) := by
  subst ht
  unfold Session.onBackendPacket
  split
  · exact h.fail (Note.isMute_heard fun _ _ => rfl) _
  · next hno =>
    have hp : p.kind ≠ .disconnect := by
      intro hk
      cases p <;> simp_all [Backend.Packet.kind]
    have hd' := s.converters.downward_eq s.stats s.context p
    have howes := h.owes
    rw [hd] at howes
    have hheard := howes.heardBackend hp
    rw [← h.context, ← hd'.1] at hheard
    refine .forwarding ⟨h.stage, h.todo, ?_, hheard⟩
    rw [Ledger.ofNotes_concat, Ledger.enter, if_neg hp, ← h.context]
    exact hd'.2

/-- A command is a notice to be sent, or ends the session. -/
theorem command (h : Flow t c s m) (hn : s.notices = []) (k : SessionCommand) :
    Delivery t c (s.onCommand k) (m ++ [.heard (.command k)]) := by
  cases k with
  | close reason => exact h.fail (Note.isMute_heard fun _ _ => rfl) _
  | sendMessage text =>
    have howes := h.owes
    rw [hn] at howes
    refine .forwarding ⟨h.stage, h.todo, ?_, howes.heardCommand text⟩
    rw [Ledger.ofNotes_concat]
    exact h.context

/-- What has been sent was first among what is owed in its lane. -/
theorem sent (h : Flow t c s m) {lane : Lane} {a : Act} (hn : s.next? lane = some a) (now : Nat)
    (u : Unit) : Delivery t c (s.handle now (.done lane (.ok u))) (m ++ [.did lane a (.ok u)]) := by
  have howes := h.owes
  have hcontext : s.context = (Ledger.ofNotes t c (m ++ [.did lane a (.ok u)])).context := by
    rw [Ledger.ofNotes_concat]
    exact h.context
  cases lane with
  | main => simp [Session.next?, h.todo] at hn
  | toBackend =>
    obtain ⟨p, hp, rfl⟩ := Option.map_eq_some_iff.mp hn
    obtain ⟨rest, hu⟩ := List.head?_eq_some_iff.mp hp
    rw [hu] at howes
    refine awaitClient (s := { s with upward := s.upward.tail }) ⟨h.stage, h.todo, hcontext, ?_⟩ now
    simpa only [hu, List.tail_cons] using howes.asked .toBackend u
  | toClient =>
    obtain ⟨p, hp, rfl⟩ := Option.map_eq_some_iff.mp hn
    obtain ⟨rest, hd⟩ := List.head?_eq_some_iff.mp hp
    rw [hd] at howes
    refine .forwarding ⟨h.stage, h.todo, hcontext, ?_⟩
    simpa only [Session.handle, hd, List.tail_cons] using howes.toldClient u
  | commands =>
    obtain ⟨p, hp, rfl⟩ := Option.map_eq_some_iff.mp hn
    obtain ⟨rest, hno⟩ := List.head?_eq_some_iff.mp hp
    rw [hno] at howes
    refine .forwarding ⟨h.stage, h.todo, hcontext, ?_⟩
    simpa only [Session.handle, hno, List.tail_cons] using howes.notified u

/-- What a session in its forwarding hears or has done brings it on or ends it. -/
theorem next (h : Flow t c s m) (ht : s.converters = t) {e : Event} (ha : s.admits e) (now : Nat) :
    Delivery t c (s.handle now e) (m ++ s.noted e) := by
  cases e with
  | shutdown => exact h.fail (Note.isMute_heard fun _ _ => rfl) _
  | timeUp => exact h.fail (Note.isMute_heard fun _ _ => rfl) _
  | client r =>
    cases r with
    | error e => exact h.fail (Note.isMute_heard fun _ _ => rfl) e
    | ok p =>
      rcases Session.admits_client ha with ⟨hs | hs, -⟩ | ⟨-, hu⟩
      · exact absurd (hs.symm.trans h.stage) nofun
      · exact absurd (hs.symm.trans h.stage) nofun
      · simp only [Session.handle, h.stage]
        exact h.client ht hu now p
  | connected r => exact absurd ((Session.admits_connected ha).1.symm.trans h.stage) nofun
  | backend r =>
    cases r with
    | error e => exact h.fail (Note.isMute_heard fun _ _ => rfl) e
    | ok p => exact h.backend ht (Session.admits_backend ha).2 p
  | command k => exact h.command (Session.admits_command ha).2 k
  | done lane r =>
    obtain ⟨a, hn, -⟩ := Session.admits_done ha
    rw [Session.noted_done hn]
    cases r with
    | ok u => exact h.sent hn now u
    | error e =>
      have hfail : s.handle now (.done lane (.error e)) = s.fail e := by
        simp [Session.handle, Session.onFailed, h.stage]
      rw [hfail]
      exact h.fail (Note.isMute_failed lane a e) e

end Flow

namespace Delivery

variable {t : Converters} {c : SessionContext} {m : Notes}

/-- In the teardown nothing more is sent but the farewell. -/
theorem next_ending {k : Course} {e : GatewayError} (hk : k.Closing e)
    {before last : List Client.Packet} (paid : Paid (Ledger.ofNotes t c m) { sent m with told := before })
    (told : told m = before ++ last)
    (farewell : (last ++ k.session.todo.filterMap Act.told?).Sublist
      [.farewell e.disconnectReason.message])
    {ev : Event} (ha : k.session.admits ev) (now : Nat) :
    Delivery t c (k.session.handle now ev) (m ++ k.session.noted ev) := by
  obtain ⟨a, r, rest, rfl, ht, hr⟩ := hk.ending.admits ha
  have hkind := Session.mem_teardown (hk.mem_teardown (Session.next?_main ht))
  have hdone := hk.ending.handle_done ht (by rintro x rfl; simp at hkind)
    (by rintro x rfl; simp at hkind) hr now
  have hask : a.kind ≠ .ask := by
    rcases hkind with rfl | rfl | rfl | rfl | rfl | rfl | rfl <;> simp [Act.kind]
  rw [Session.noted_main ht, hdone]
  refine .ending e before (last ++ Notes.told [.did .main a r]) hk.ending.stage (paid.did hask r) ?_ ?_
  · rw [told_append, told, List.append_assoc]
  · -- What is told now was the first of what was to be told.
    refine List.Sublist.trans ?_ farewell
    rw [ht, List.append_assoc]
    refine List.Sublist.append_left ?_ last
    cases r with
    | ok u => cases a <;> exact List.Sublist.refl _
    | error e =>
      have hnone : Notes.told [.did .main a (.error e)] = [] := by cases a <;> rfl
      rw [hnone, List.nil_append, List.filterMap_cons]
      split
      · exact List.Sublist.refl _
      · exact List.sublist_cons_self _ _

/-- Every event keeps a session to what it owes. -/
theorem next {k : Course} (h : Delivery t c k.session m) (hk : Course.Orderly t k) {e : Event}
    (ha : k.session.admits e) (now : Nat) :
    Delivery t c (k.session.handle now e) (m ++ k.session.noted e) := by
  cases h with
  | registering u stage todo context ledger owes =>
    have hu := hk.underWay (by simp [stage])
    obtain ⟨a, rest, r, rfl, ht⟩ := joining_cases hu stage ha
    obtain ⟨rfl, -⟩ := List.cons.inj (todo.symm.trans ht)
    rw [Session.noted_main todo]
    cases r with
    | ok v =>
      exact registered stage todo (hu.lanes (by simp [stage])) context hk.converters ledger owes now
    | error err =>
      rw [hu.handle_failed]
      exact fail (owes.mute (Note.isMute_failed _ _ _)) _ _
  | opening ps stage todo context owes =>
    have hu := hk.underWay (by simp [stage])
    obtain ⟨a, rest, r, rfl, ht⟩ := joining_cases hu stage ha
    rw [Session.noted_main ht]
    cases ps with
    | nil => simp [todo] at ht
    | cons p ps =>
      obtain ⟨rfl, rfl⟩ := List.cons.inj (todo.symm.trans ht)
      cases r with
      | error err =>
        rw [hu.handle_failed]
        exact fail (owes.mute (Note.isMute_failed _ _ _)) _ _
      | ok v =>
        simp only [Session.handle]
        rw [Session.onDone_of_isPlain todo trivial]
        refine settle (s := { k.session with todo := ps.map .ask }) stage rfl
          (hu.lanes (by simp [stage])) ?_ (owes.asked .main v) now
        rw [Ledger.ofNotes_concat]
        exact context
  | forwarding flow => exact flow.next hk.converters ha now
  | ending e before last stage paid told farewell =>
    exact next_ending (hk.closing stage) paid told farewell ha now

end Delivery

/-- What has been passed on in a session that was established with this context, by the notes since
then. -/
structure Forwarded (t : Converters) (c : SessionContext) (s : Session) (m : Notes) : Prop where
  /-- The backend has been sent what it is owed, up to an end of the last group. -/
  toBackend : CutInLast (Ledger.ofNotes t c m).toBackend (asked m)
  /-- So has the client what comes of the backend's words. -/
  fromBackend : CutInLast (Ledger.ofNotes t c m).fromBackend (sentIn .toClient m)
  /-- So has it the notices. -/
  notices : CutInLast (Ledger.ofNotes t c m).notices (sentIn .commands m)
  /-- The client has been sent nothing else but a farewell at the end. -/
  toClient : ∃ before last, told m = before ++ last ∧
    Merge (sentIn .toClient m) (sentIn .commands m) before ∧
    (last = [] ∨ ∃ e, s.stage = .ending e ∧ last = [.farewell e.disconnectReason.message])
  /-- Until the session ends nothing is cut short that is not on its way. -/
  pending : s.stage = .forwarding →
    asked m ++ s.upward = (Ledger.ofNotes t c m).toBackend.flatten ∧
    sentIn .toClient m ++ s.downward = (Ledger.ofNotes t c m).fromBackend.flatten ∧
    sentIn .commands m ++ s.notices = (Ledger.ofNotes t c m).notices.flatten

namespace Delivery

variable {t : Converters} {c : SessionContext} {s : Session} {m : Notes}

theorem forwarded (h : Delivery t c s m) : Forwarded t c s m := by
  cases h with
  | registering u stage todo context ledger owes =>
    exact ⟨owes.up.cutInLast, owes.down.cutInLast, owes.notices.cutInLast,
      ⟨_, [], (List.append_nil _).symm, owes.merge, .inl rfl⟩,
      fun hs => absurd (hs.symm.trans stage) nofun⟩
  | opening ps stage todo context owes =>
    exact ⟨owes.up.cutInLast, owes.down.cutInLast, owes.notices.cutInLast,
      ⟨_, [], (List.append_nil _).symm, owes.merge, .inl rfl⟩,
      fun hs => absurd (hs.symm.trans stage) nofun⟩
  | forwarding flow =>
    have howes := flow.owes
    exact ⟨howes.up.cutInLast, howes.down.cutInLast, howes.notices.cutInLast,
      ⟨_, [], (List.append_nil _).symm, howes.merge, .inl rfl⟩,
      fun _ => ⟨howes.up.all, howes.down.all, howes.notices.all⟩⟩
  | ending e before last stage paid told farewell =>
    refine ⟨paid.up, paid.down, paid.notices, ⟨before, last, told, paid.merge, ?_⟩,
      fun hs => absurd (hs.symm.trans stage) nofun⟩
    have hlast : last.Sublist [.farewell e.disconnectReason.message] :=
      (List.sublist_append_left _ _).trans farewell
    rcases List.sublist_cons_iff.mp hlast with hl | ⟨r, rfl, hr⟩
    · exact .inl (List.sublist_nil.mp hl)
    · rw [List.sublist_nil.mp hr]
      exact .inr ⟨e, stage, rfl⟩

/-- A session that has just shown that it is established has its delivery before it. -/
theorem since {k : Course} (hk : Course.Orderly t k) (ht : t.Discreet) (hs : k.session.stage = .joining)
    {u : String} (hu : k.session.todo = [.register u]) (es : List (Nat × Event)) :
    ∃ m, (k.after es).notes = k.notes ++ m ∧
      Delivery t k.session.context (k.after es).session m := by
  refine hk.induction (P := fun d => ∃ m, d.notes = k.notes ++ m ∧
    Delivery t k.session.context d.session m) ht ?_ ?_ es
  · exact ⟨[], (List.append_nil _).symm, .registering u hs hu rfl rfl (Owes.start _ _)⟩
  · rintro d now e hd ⟨m, hm, h⟩ ha
    refine ⟨m ++ d.session.noted e ++ d.session.shown (d.session.handle now e), ?_,
      (h.next hd ha now).shown _ _⟩
    simp only [hm, List.append_assoc]

end Delivery

/-- What has been sent is in one of the groups. -/
theorem CutInLast.mem {α : Type} {groups : List (List α)} {sent : List α} (h : CutInLast groups sent)
    {a : α} (ha : a ∈ sent) : ∃ group ∈ groups, a ∈ group :=
  List.mem_flatten.mp (h.2.subset ha)

namespace Course

/-- From the moment at which a session is established, it passes on what it hears, in order and
without a gap, and nothing that it has heard before. -/
theorem forwards_in_order (config : GatewayConfig) (mappings : Mappings) (id : SessionId) (now : Nat)
    (es : List (Nat × Event))
    (established : ((start config (.standard mappings) id now).after es).Establishes)
    (since : List (Nat × Event)) :
    let t := Converters.standard mappings
    let c := (start config t id now).after es
    let d := c.after since
    c.session.stats = {} ∧ asked c.notes = [] ∧
      ∃ m, d.notes = c.notes ++ m ∧ Forwarded t c.session.context d.session m ∧
        (∃ packets, (Ledger.ofNotes t c.session.context m).toBackend =
          [.clientSettings ((c.session.context.clientData.map (·.locale)).getD
              (Text.lowerAscii ClientData.defaultLanguage))
            (Conversion.ToBackend.clampView c.session.context.chunkRadius) true .main] :: packets) ∧
        ∀ q ∈ asked d.notes, q.phase = .play := by
  intro t c d
  have ht : t.Discreet := Converters.standard_discreet mappings
  obtain ⟨hreserved, hs, u, hu⟩ := reserved_of_establishes config ht id now es established
  obtain ⟨m, hm, hdelivery⟩ := Delivery.since (orderly_after config ht id now es) ht hs hu since
  have hforwarded := hdelivery.forwarded
  obtain ⟨packets, hpackets⟩ := Ledger.toBackend_settings mappings c.session.context m
  refine ⟨hreserved.session.stats, hreserved.asked, m, hm, hforwarded, ⟨packets, hpackets.symm⟩, ?_⟩
  intro q hq
  rw [hm, asked_append, hreserved.asked, List.nil_append] at hq
  obtain ⟨group, hgroup, hq⟩ := hforwarded.toBackend.mem hq
  exact Ledger.toBackend_plays mappings c.session.context m group hgroup q hq

/-- A kick cuts short what a client is told when it joins. -/
theorem forwards_until_kicked :
    let c := (start {} (.standard {}) ⟨1⟩ 0).after (welcomed.map (0, ·))
    let since : List Event := [.done .main (.ok ()), .done .main (.ok ()),
      .backend (.ok (.joinGame 7 0 0 1 20 8 false)), .client (.ok (.animate .swingArm .player)),
      .command (.sendMessage "Goodbye"), .done .toClient (.ok ()), .done .toBackend (.ok ()),
      .done .commands (.ok ()), .command (.close ⟨.serverShutdown, "Server closed"⟩)] ++
      List.replicate 7 (.done .main (.ok ()))
    let d := c.after (since.map (0, ·))
    c.Establishes ∧ (asked d.notes).map (·.kind) = [.clientSettings, .animation] ∧
      ∃ m, d.notes = c.notes ++ m ∧ (told m).map (·.kind) = [.startGame, .text, .disconnect] ∧
        Forwarded (.standard {}) c.session.context d.session m := by
  intro c since d
  have established : c.Establishes := rfl
  obtain ⟨-, -, m, hm, hforwarded, -⟩ := forwards_in_order {} {} ⟨1⟩ 0 _ established
    (since.map (0, ·))
  have htold : (told c.notes).map (·.kind) ++ (told m).map (·.kind) =
      (told c.notes).map (·.kind) ++ [.startGame, .text, .disconnect] := by
    rw [← List.map_append, ← told_append, ← hm]
    decide +kernel
  exact ⟨established, by decide +kernel, m, hm, List.append_cancel_left htold, hforwarded⟩

end Course
end EditionGateway
