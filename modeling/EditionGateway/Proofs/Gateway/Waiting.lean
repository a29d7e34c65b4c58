import EditionGateway.Proofs.Gateway.Runs
import EditionGateway.Proofs.Session.Patience
import EditionGateway.Proofs.Shape.Packets
import Mathlib.Logic.Relation

/-!
Sessions that wait, for the backend to be reached or for their client to go on with its handshake, while
packets come that mean nothing. A session waits until the attempt to reach the backend is over or its own
time is up, whichever is first, and meanwhile it only answers latency probes: `Run.settles`.

Sessions take their steps one by one, and between them the packets come, other sessions get on and time
passes. It does not pass over the moment at which the attempt is over or the session's time is up; there it
stands until the session has noticed.
-/

namespace EditionGateway

open Notes

/-- When an attempt to reach the backend is over, and what comes of it; nothing if it never is. -/
abbrev Attempt := Option (Nat × Except BackendError Unit)

/-- What has come of an attempt by now. -/
def attemptBy (a : Attempt) (now : Nat) : Option (Except BackendError Unit) :=
  (a.filter fun x => x.1 ≤ now).map (·.2)

section

variable {a : Attempt} {now : Nat} {r : Except BackendError Unit}

theorem attemptBy_eq_some (h : attemptBy a now = some r) : ∃ time, a = some (time, r) ∧ time ≤ now := by
  obtain ⟨⟨time, r'⟩, hx, rfl⟩ := Option.map_eq_some_iff.mp h
  obtain ⟨rfl, htime⟩ := Option.filter_eq_some_iff.mp hx
  exact ⟨time, rfl, of_decide_eq_true htime⟩

theorem lt_of_attemptBy {time : Nat} (h : attemptBy (some (time, r)) now = none) : now < time := by
  rw [attemptBy, Option.map_eq_none_iff, Option.filter_eq_none_iff] at h
  simpa using h _ rfl

end

/-! ### The surroundings of a session -/

/-- The packets of a client that wait to be received, and what has come of the attempt to reach the
backend. -/
structure Outlook where
  packets : List Client.Packet
  link : Option (Except BackendError Unit)

/-- A network on which the client's link works, and what its states show to a session. -/
structure Network.Serves {σ : Type} [Network σ] (id : SessionId) (shows : σ → Outlook → Prop) : Prop where
  quiet {n : σ} {l : Option (Except BackendError Unit)} (h : shows n ⟨[], l⟩) :
    ∃ m, Network.receiveClient id n = (none, m) ∧ shows m ⟨[], l⟩
  packet {n : σ} {p : Client.Packet} {ps : List Client.Packet} {l : Option (Except BackendError Unit)}
    (h : shows n ⟨p :: ps, l⟩) : ∃ b m, Network.receiveClient id n = (some (.packet b), m) ∧
      Client.Packet.shape.decode b = .ok p ∧ shows m ⟨ps, l⟩
  sent {n : σ} {o : Outlook} (b : Bytes) (h : shows n o) :
    ∃ m, Network.sendClient id b n = (.ok (), m) ∧ shows m o
  pending {n : σ} {ps : List Client.Packet} (h : shows n ⟨ps, none⟩) :
    ∃ m, Network.connected id n = (none, m) ∧ shows m ⟨ps, none⟩
  finished {n : σ} {ps : List Client.Packet} {r : Except BackendError Unit} (h : shows n ⟨ps, some r⟩) :
    ∃ m, Network.connected id n = (some r, m)

/-- What the network shows to a session, when the attempt to reach the backend is over, and what packets
the client sends. -/
structure Scene (σ : Type) where
  shows : σ → Outlook → Prop
  attempt : Attempt
  sends : Client.Packet → Prop

/-- Nothing disturbs a session that has time until this deadline, and these packets wait for it. -/
structure Scene.Calm {σ : Type} (c : Scene σ) (deadline : Nat) (ps : List Client.Packet) (h : Host σ) :
    Prop where
  running : h.registry.shuttingDown = false
  early : h.now ≤ deadline
  undue : ∀ time r, c.attempt = some (time, r) → h.now ≤ time
  sent : ∀ p ∈ ps, c.sends p
  shown : c.shows h.network ⟨ps, attemptBy c.attempt h.now⟩

namespace Host

variable {σ : Type}

def session? (h : Host σ) (id : SessionId) : Option Session := (h.seats.get? id).map (·.session)

theorem session?_handle {h : Host σ} {id : SessionId} (hs : (h.seats.get? id).isSome) (seat : Seat)
    (e : Event) : (h.handle id seat e).session? id = some (seat.session.handle h.now e) := by
  obtain ⟨old, hold⟩ := Option.isSome_iff_exists.mp hs
  simp [session?, handle, Table.get?_modify, hold]

variable [Network σ]

/-- What a session learns with the step that it takes next. -/
def happening (h : Host σ) (id : SessionId) (seat : Seat) : Option Event :=
  match nextAct seat.session with
  | some (lane, act) => some (.done lane (h.perform id seat act).1)
  | none => (h.firstEvent (sources id seat)).1

end Host

/-- A gateway, and what has been noted about one of its sessions. -/
structure Vigil (σ : Type) where
  host : Host σ
  notes : Notes := []

namespace Vigil

variable {σ : Type} [Network σ]

/-- The session takes a step. -/
inductive Acts (id : SessionId) : Vigil σ → Vigil σ → Prop
  | step {h k : Host σ} {notes : Notes} {seat : Seat} {e : Event} (hs : h.seats.get? id = some seat)
      (hk : h.step id seat = (true, k)) (he : h.happening id seat = some e) :
      Acts id ⟨h, notes⟩ ⟨k, notes ++ seat.session.noted e⟩

/-- The session takes steps, and everything else changes without disturbing it, as long as it stays in
this stage. -/
inductive Run (id : SessionId) (c : Scene σ) (stage : Stage) (u : Vigil σ) : Vigil σ → Prop
  | start {s : Session} {ps : List Client.Packet} (hs : u.host.session? id = some s)
      (calm : c.Calm s.deadline ps u.host) : Run id c stage u u
  | acts {v w : Vigil σ} (hv : Run id c stage u v)
      (hs : ∃ s, v.host.session? id = some s ∧ s.stage = stage) (h : v.Acts id w) : Run id c stage u w
  | change {v : Vigil σ} {k : Host σ} {s : Session} {ps : List Client.Packet} (hv : Run id c stage u v)
      (hs : k.session? id = some s) (hstage : s.stage = stage)
      (hseat : k.seats.get? id = v.host.seats.get? id) (later : v.host.now ≤ k.now)
      (calm : c.Calm s.deadline ps k) : Run id c stage u ⟨k, v.notes⟩

end Vigil

/-! ### When the waiting ends -/

namespace Session

/-- The time until which a session waits, and what it learns then. -/
def verdict (s : Session) : Attempt → Nat × Event
  | some (time, r) => if time ≤ s.deadline then (time, .connected r) else (s.deadline, .timeUp)
  | none => (s.deadline, .timeUp)

variable {s : Session} {a : Attempt} {now : Nat} {r : Except BackendError Unit}

theorem verdict_of_attempt (early : now ≤ s.deadline) (undue : ∀ time r, a = some (time, r) → now ≤ time)
    (hr : attemptBy a now = some r) : s.verdict a = (now, .connected r) := by
  obtain ⟨time, rfl, hle⟩ := attemptBy_eq_some hr
  obtain rfl := Nat.le_antisymm hle (undue time r rfl)
  exact if_pos early

theorem verdict_of_deadline (hr : attemptBy a s.deadline = none) : s.verdict a = (s.deadline, .timeUp) := by
  match a with
  | none => rfl
  | some (time, r) => exact if_neg (Nat.not_le.mpr (lt_of_attemptBy hr))

theorem ne_verdict (early : now < s.deadline) (hr : attemptBy a now = none) : now ≠ (s.verdict a).1 := by
  unfold verdict
  split
  · split
    · exact Nat.ne_of_lt (lt_of_attemptBy hr)
    · exact Nat.ne_of_lt early
  · exact Nat.ne_of_lt early

theorem le_verdict (early : now ≤ s.deadline) (undue : ∀ time r, a = some (time, r) → now ≤ time) :
    now ≤ (s.verdict a).1 := by
  unfold verdict
  split
  · split
    · exact undue _ _ rfl
    · exact early
  · exact early

/-- A session that has nothing to do but to wait, and for which packets mean no more than an echo. -/
structure Waits {σ : Type} (s : Session) (c : Scene σ) : Prop where
  stage : s.stage = .linking ∨ s.stage = .handshake ∧ c.attempt = none
  idle : Host.nextAct s = none
  echoes : ∀ p, c.sends p → s.Echoes p

/-- What a session has become when its waiting is over. -/
def afterVerdict (s : Session) (a : Attempt) : Session := s.handle (s.verdict a).1 (s.verdict a).2

namespace Waits

variable {σ : Type} {c : Scene σ}

theorem session_eq (hw : s.Waits c) : { s with todo := ([] : List Client.Packet).map .tell } = s := by
  rw [List.map_nil, ← (queues_of_nextAct hw.idle).1]

theorem handle_tell (hw : s.Waits c) (q : Client.Packet) (owed : List Client.Packet) (now : Nat) :
    ({ s with todo := (q :: owed).map .tell } : Session).handle now (.done .main (.ok ())) =
      { s with todo := owed.map .tell } := by
  rcases hw.stage with hs | ⟨hs, -⟩ <;> simp [handle, onDone, settle, hs]

theorem ending? (hw : s.Waits c) (todo : List Act) : ({ s with todo } : Session).ending? = none := by
  rcases hw.stage with hs | ⟨hs, -⟩ <;> simp [Session.ending?, hs]

theorem stage_afterVerdict (hw : s.Waits c) : (s.afterVerdict c.attempt).stage ≠ s.stage := by
  have hfail (e : GatewayError) : (s.fail e).stage ≠ s.stage := by
    rcases hw.stage with hs | ⟨hs, -⟩ <;> simp [fail, hs]
  unfold afterVerdict verdict
  split
  · next time r ha =>
    have hs : s.stage = .linking := hw.stage.resolve_right fun h => nomatch ha.symm.trans h.2
    split
    · cases r with
      | error e => exact hfail _
      | ok u => simp [handle, hs]
    · exact hfail _
  · exact hfail _

end Waits

theorem nextAct_tell (s : Session) (q : Client.Packet) (owed : List Client.Packet) :
    Host.nextAct { s with todo := (q :: owed).map .tell } = some (.main, .tell q) := by
  simp [Host.nextAct, next?]

end Session

/-! ### One step of a session that waits -/

theorem Client.Packet.encode_echo (timestamp : UInt64) :
    ∃ b, shape.encode (.networkStackLatency timestamp false) = .ok b := by
  refine ⟨_, Shape.encode_eq_ok.mpr ⟨rfl, ?_⟩⟩
  have hlength := Binary.length_writeNat_le timestamp.toNat
  show (_ :: (Binary.writeNat timestamp.toNat ++ [_])).length ≤ _
  rw [List.length_cons, List.length_append]
  exact Nat.le_trans (Nat.succ_le_succ (Nat.add_le_add_right hlength 1)) (by decide : 11 ≤ maxPacketLength)

namespace Host

variable {σ : Type} {c : Scene σ} {h : Host σ} {seat : Seat} {ps : List Client.Packet}

/-- What a session hears that waits, while nothing disturbs it. -/
inductive Hears (s : Session) (c : Scene σ) (h : Host σ) :
    List Client.Packet → Option Event × Host σ → Prop
  | verdict {ps : List Client.Packet} {n : σ} {e : Event} (time : s.verdict c.attempt = (h.now, e)) :
      Hears s c h ps (some e, { h with network := n })
  | packet {p : Client.Packet} {ps : List Client.Packet} {n : σ}
      (shown : c.shows n ⟨ps, attemptBy c.attempt h.now⟩) :
      Hears s c h (p :: ps) (some (.client (.ok p)), { h with network := n })
  | nothing {n : σ} (early : h.now ≠ (s.verdict c.attempt).1) :
      Hears s c h [] (none, { h with network := n })

theorem pollShutdown_of_running (running : h.registry.shuttingDown = false) :
    h.pollShutdown = (none, h) := by
  simp [pollShutdown, running]

variable [Network σ] {id : SessionId}

theorem step_of_act {lane : Lane} {a : Act} (ha : nextAct seat.session = some (lane, a)) {k : Host σ}
    (hk : h.perform id seat a = (.ok (), k))
    (hon : ((k.handle id seat (.done lane (.ok ()))).session? id).bind (·.ending?) = none) :
    h.step id seat = (true, k.handle id seat (.done lane (.ok ()))) ∧
      h.happening id seat = some (.done lane (.ok ())) := by
  rw [session?, Option.bind_map] at hon
  have hover : ((k.handle id seat (.done lane (.ok ()))).seats.get? id).bind (·.session.ending?) = none :=
    hon
  constructor
  · simp [step, ha, hk, hover]
  · simp only [happening, ha, hk]

theorem step_of_event (hn : nextAct seat.session = none) {e : Event} {k : Host σ}
    (he : h.firstEvent (sources id seat) = (some e, k)) :
    h.step id seat = (true, k.handle id seat e) ∧ h.happening id seat = some e := by
  simp only [step, happening, hn, he, and_self]

theorem happening_of_idle (hn : nextAct seat.session = none) :
    h.happening id seat = (h.firstEvent (sources id seat)).1 := by
  simp only [happening, hn]

variable (serves : Network.Serves id c.shows)
include serves

theorem pollClient_nil {l : Option (Except BackendError Unit)} (shown : c.shows h.network ⟨[], l⟩) :
    ∃ m, h.pollClient id = (none, { h with network := m }) := by
  obtain ⟨m, hm, -⟩ := serves.quiet shown
  exact ⟨m, by simp [pollClient, hm]⟩

theorem pollClient_cons {l : Option (Except BackendError Unit)} {p : Client.Packet}
    (shown : c.shows h.network ⟨p :: ps, l⟩) : ∃ m,
      h.pollClient id = (some (.client (.ok p)), { h with network := m }) ∧ c.shows m ⟨ps, l⟩ := by
  obtain ⟨b, m, hm, hb, hshown⟩ := serves.packet shown
  refine ⟨m, ?_, hshown⟩
  simp only [pollClient, hm, Option.map_some, hb]
  rfl

/-- The attempt comes before the clock, and the clock before the client. -/
theorem hears_linking (hs : seat.session.stage = .linking) (calm : c.Calm seat.session.deadline ps h) :
    Hears seat.session c h ps (h.firstEvent (sources id seat)) := by
  have hshutdown := pollShutdown_of_running calm.running
  have hshown := calm.shown
  cases hr : attemptBy c.attempt h.now with
  | some r =>
    obtain ⟨m, hm⟩ := serves.finished (hr ▸ hshown)
    simp only [sources, hs, firstEvent, hshutdown, pollConnect, hm, Option.map_some]
    exact .verdict (Session.verdict_of_attempt calm.early calm.undue hr)
  | none =>
    obtain ⟨m, hm, hshown⟩ := serves.pending (hr ▸ hshown)
    simp only [sources, hs, firstEvent, hshutdown, pollConnect, hm, Option.map_none, pollTime]
    by_cases hd : seat.session.deadline ≤ h.now
    · rw [if_pos hd]
      have hnow := Nat.le_antisymm calm.early hd
      exact .verdict (hnow ▸ Session.verdict_of_deadline (hnow ▸ hr))
    · rw [if_neg hd]
      dsimp only
      cases ps with
      | nil =>
        obtain ⟨m', hm'⟩ := pollClient_nil serves (h := { h with network := m }) hshown
        rw [hm']
        exact .nothing (Session.ne_verdict (Nat.not_le.mp hd) hr)
      | cons p ps =>
        obtain ⟨m', hm', hshown⟩ := pollClient_cons serves (h := { h with network := m }) hshown
        rw [hm']
        exact .packet (n := m') (hr ▸ hshown)

/-- The client comes before the clock. -/
theorem hears_handshake (hs : seat.session.stage = .handshake) (ha : c.attempt = none)
    (calm : c.Calm seat.session.deadline ps h) :
    Hears seat.session c h ps (h.firstEvent (sources id seat)) := by
  have hshutdown := pollShutdown_of_running calm.running
  have hr : attemptBy c.attempt h.now = none := by rw [ha]; rfl
  simp only [sources, hs, firstEvent, hshutdown]
  cases ps with
  | nil =>
    obtain ⟨m, hm⟩ := pollClient_nil serves calm.shown
    simp only [hm, pollTime]
    by_cases hd : seat.session.deadline ≤ h.now
    · rw [if_pos hd]
      have hnow := Nat.le_antisymm calm.early hd
      exact .verdict (hnow ▸ Session.verdict_of_deadline (hnow ▸ hr))
    · rw [if_neg hd]
      exact .nothing (Session.ne_verdict (Nat.not_le.mp hd) hr)
  | cons p ps =>
    obtain ⟨m, hm, hshown⟩ := pollClient_cons serves calm.shown
    rw [hm]
    exact .packet hshown

theorem hears (hw : seat.session.Waits c) (calm : c.Calm seat.session.deadline ps h) :
    Hears seat.session c h ps (h.firstEvent (sources id seat)) := by
  rcases hw.stage with hs | ⟨hs, ha⟩
  · exact hears_linking serves hs calm
  · exact hears_handshake serves hs ha calm

theorem perform_echo {o : Outlook} (shown : c.shows h.network o) (timestamp : UInt64) : ∃ m,
    h.perform id seat (.tell (.networkStackLatency timestamp false)) = (.ok (), { h with network := m }) ∧
      c.shows m o := by
  obtain ⟨b, hb⟩ := Client.Packet.encode_echo timestamp
  obtain ⟨m, hm, hshown⟩ := serves.sent b shown
  refine ⟨m, ?_, hshown⟩
  simp only [perform, transmit, hb, hm]
  rfl

end Host

/-! ### The whole of the waiting -/

namespace Vigil

section

variable {s : Session} {a : Attempt} {before : List Act} {ps owed : List Client.Packet} {n m : Notes}

theorem exists_of_mem_echoes {q : Client.Packet} (h : q ∈ echoes ps) :
    ∃ timestamp, q = .networkStackLatency timestamp false := by
  obtain ⟨p, -, hp⟩ := List.mem_filterMap.mp h
  split at hp
  · exact ⟨_, (Option.some.inj hp).symm⟩
  · cases hp

/-- Nothing has been done after these acts but to answer latency probes, and only these answers are
still owed. -/
structure Echoed (before : List Act) (owed : List Client.Packet) (n : Notes) : Prop where
  told : told n ++ owed = echoes (reads n)
  acts : acts n = before ++ (Notes.told n).map .tell

namespace Echoed

theorem tell {q : Client.Packet} (h : Echoed before (q :: owed) n) :
    Echoed before owed (n ++ [.did .main (.tell q) (.ok ())]) where
  told := by
    rw [told_append, reads_append, List.append_assoc]
    exact h.told.trans (congrArg echoes (List.append_nil _).symm)
  acts := by
    rw [acts_append, told_append, List.map_append, ← List.append_assoc, ← h.acts]
    rfl

theorem packet (h : Echoed before [] n) (p : Client.Packet) :
    Echoed before (echoes [p]) (n ++ [.heard (.client (.ok p))]) where
  told := by
    rw [told_append, reads_append, echoes_append, ← h.told]
    rfl
  acts := by
    rw [acts_append, told_append, List.map_append, ← List.append_assoc, ← h.acts]
    rfl

theorem silent (h : Echoed before [] n) (hacts : Notes.acts m = []) (htold : Notes.told m = [])
    (hreads : reads m = []) : Echoed before [] (n ++ m) where
  told := by
    simp only [told_append, reads_append, htold, hreads, List.append_nil]
    exact (List.append_nil _).symm.trans h.told
  acts := by rw [acts_append, told_append, hacts, htold, List.append_nil, List.append_nil, h.acts]

theorem verdict (h : Echoed before [] n) {now : Nat} {e : Event} (he : s.verdict a = (now, e)) :
    Echoed before [] (n ++ s.noted e) := by
  unfold Session.verdict at he
  split at he
  · split at he <;> cases he <;> exact h.silent rfl rfl rfl
  · cases he
    exact h.silent rfl rfl rfl

end Echoed

end

variable {σ : Type} {id : SessionId} {c : Scene σ} {s t : Session} {time : Nat} {before : List Act}
  {ps owed : List Client.Packet} {u v w : Vigil σ}

/-- The waiting is over at this time, and the session has become this one. -/
structure Ends (id : SessionId) (t : Session) (time : Nat) (before : List Act) (v : Vigil σ) : Prop where
  now : v.host.now = time
  session : v.host.session? id = some t
  echoed : Echoed before [] v.notes

/-- How and when the waiting ends does not depend on what has come meanwhile. -/
theorem Ends.unique {x y : Session} (hv : v.Ends id t time before) (hw : w.Ends id t time before)
    (hx : v.host.session? id = some x) (hy : w.host.session? id = some y) :
    v.host.now = w.host.now ∧ x = y := by
  refine ⟨hv.now.trans hw.now.symm, Option.some.inj ?_⟩
  rw [← hx, ← hy, hv.session, hw.session]

theorem Ends.left (hw : s.Waits c)
    (h : v.Ends id (s.afterVerdict c.attempt) (s.verdict c.attempt).1 before) :
    ¬ ∃ t, v.host.session? id = some t ∧ t.stage = s.stage := by
  rintro ⟨t, ht, hstage⟩
  obtain rfl := Option.some.inj (ht.symm.trans h.session)
  exact hw.stage_afterVerdict hstage

/-- The session `s` waits undisturbed. These answers are still to be given, and these packets to be
received. -/
structure Rests (id : SessionId) (c : Scene σ) (s : Session) (before : List Act)
    (ps owed : List Client.Packet) (v : Vigil σ) : Prop where
  session : v.host.session? id = some { s with todo := owed.map .tell }
  latency : ∀ q ∈ owed, ∃ timestamp, q = .networkStackLatency timestamp false
  echoed : Echoed before owed v.notes
  calm : c.Calm s.deadline ps v.host

variable [Network σ]

/-- The session gives the next answer that it owes. -/
theorem Rests.tell (serves : Network.Serves id c.shows) (hw : s.Waits c) {q : Client.Packet}
    (h : Rests id c s before ps (q :: owed) v) :
    ∃ w, v.Acts id w ∧ Rests id c s before ps owed w ∧ w.host.now = v.host.now := by
  obtain ⟨seat, hs, hsession⟩ := Option.map_eq_some_iff.mp h.session
  obtain ⟨timestamp, rfl⟩ := h.latency q List.mem_cons_self
  obtain ⟨m, hm, hshown⟩ := Host.perform_echo serves h.calm.shown timestamp
  have hnext := hsession ▸ s.nextAct_tell (.networkStackLatency timestamp false) owed
  have hhandle : seat.session.handle v.host.now (.done .main (.ok ())) =
      { s with todo := owed.map .tell } := by
    rw [hsession]
    exact hw.handle_tell _ owed _
  have hafter : ({ v.host with network := m }.handle id seat (.done .main (.ok ()))).session? id =
      some { s with todo := owed.map .tell } := by
    rw [Host.session?_handle (h := { v.host with network := m })
      (Option.isSome_iff_exists.mpr ⟨seat, hs⟩) seat]
    exact congrArg some hhandle
  obtain ⟨hstep, hhappening⟩ := Host.step_of_act hnext hm (by rw [hafter]; exact hw.ending? _)
  refine ⟨_, .step hs hstep hhappening, ⟨hafter, ?_, ?_, ?_⟩, rfl⟩
  · exact fun q hq => h.latency q (List.mem_cons_of_mem _ hq)
  · rw [hsession, Session.noted_main (by rfl)]
    exact h.echoed.tell
  · exact ⟨h.calm.running, h.calm.early, h.calm.undue, h.calm.sent, hshown⟩

/-- What comes of the next step of a session that waits undisturbed: its waiting is over, or it goes on
with less to do at this time. -/
def Rests.Leads (id : SessionId) (c : Scene σ) (s : Session) (before : List Act)
    (ps owed : List Client.Packet) (v w : Vigil σ) : Prop :=
  w.Ends id (s.afterVerdict c.attempt) (s.verdict c.attempt).1 before ∨
    ∃ ps' owed', Rests id c s before ps' owed' w ∧ w.host.now = v.host.now ∧
      2 * ps'.length + owed'.length < 2 * ps.length + owed.length

/-- The session looks for what has happened. -/
theorem Rests.hear (serves : Network.Serves id c.shows) (hw : s.Waits c) (h : Rests id c s before ps [] v) :
    (∃ w, v.Acts id w ∧ Leads id c s before ps [] v w) ∨
      (∀ w, ¬ v.Acts id w) ∧ v.host.now ≠ (s.verdict c.attempt).1 := by
  obtain ⟨seat, hs, hsession⟩ := Option.map_eq_some_iff.mp h.session
  rw [hw.session_eq] at hsession
  obtain rfl := hsession
  have hafter (m : σ) (e : Event) : ({ v.host with network := m }.handle id seat e).session? id =
      some (seat.session.handle v.host.now e) :=
    Host.session?_handle (h := { v.host with network := m })
      (Option.isSome_iff_exists.mpr ⟨seat, hs⟩) seat e
  have hhears := Host.hears serves hw h.calm
  generalize hfirst : v.host.firstEvent (Host.sources id seat) = first at hhears
  cases hhears with
  | verdict htime =>
    rename_i m e
    obtain ⟨hstep, hhappening⟩ := Host.step_of_event hw.idle hfirst
    refine .inl ⟨_, .step hs hstep hhappening, .inl ⟨?_, ?_, h.echoed.verdict htime⟩⟩
    · rw [htime]
      rfl
    · rw [hafter, Session.afterVerdict, htime]
  | packet hshown =>
    rename_i p ps m
    obtain ⟨hstep, hhappening⟩ := Host.step_of_event hw.idle hfirst
    refine .inl ⟨_, .step hs hstep hhappening, .inr ⟨ps, echoes [p], ⟨?_, ?_, ?_, ?_⟩, rfl, ?_⟩⟩
    · rw [hafter]
      exact congrArg some (hw.echoes p (h.calm.sent p List.mem_cons_self) v.host.now)
    · exact fun q hq => exists_of_mem_echoes hq
    · exact h.echoed.packet p
    · have hsent : ∀ q ∈ ps, c.sends q := fun q hq => h.calm.sent q (List.mem_cons_of_mem _ hq)
      exact ⟨h.calm.running, h.calm.early, h.calm.undue, hsent, hshown⟩
    · have hlength : (echoes [p]).length ≤ 1 := List.length_filterMap_le _ _
      simp only [List.length_cons, List.length_nil]
      omega
  | nothing early =>
    refine .inr ⟨fun w hacts => ?_, early⟩
    cases hacts with
    | step hs' hk he =>
      obtain rfl := Option.some.inj (hs.symm.trans hs')
      rw [Host.happening_of_idle hw.idle, hfirst] at he
      cases he

theorem Acts.unique (hv : u.Acts id v) (hw : u.Acts id w) : v = w := by
  cases hv with
  | step hs hk he =>
    cases hw with
    | step hs' hk' he' =>
      obtain rfl := Option.some.inj (hs.symm.trans hs')
      obtain rfl := (Prod.mk.inj (hk.symm.trans hk')).2
      obtain rfl := Option.some.inj (he.symm.trans he')
      rfl

/-- A session that waits undisturbed takes a step with which it gets on, or none because it is not yet
time. -/
theorem Rests.next (serves : Network.Serves id c.shows) (hw : s.Waits c)
    (h : Rests id c s before ps owed v) :
    (∃ w, v.Acts id w ∧ Leads id c s before ps owed v w) ∨
      (∀ w, ¬ v.Acts id w) ∧ v.host.now ≠ (s.verdict c.attempt).1 := by
  cases owed with
  | nil => exact h.hear serves hw
  | cons q owed =>
    obtain ⟨w, hacts, hrests, hnow⟩ := h.tell serves hw
    exact .inl ⟨w, hacts, .inr ⟨ps, owed, hrests, hnow, by simp⟩⟩

theorem Rests.leads (serves : Network.Serves id c.shows) (hw : s.Waits c)
    (h : Rests id c s before ps owed v) (hacts : v.Acts id w) : Leads id c s before ps owed v w := by
  rcases h.next serves hw with ⟨w', hacts', hleads⟩ | ⟨hstuck, -⟩
  · exact hacts.unique hacts' ▸ hleads
  · exact absurd hacts (hstuck w)

/-- When the time has come the session does what is left to do, and then its waiting is over. -/
theorem Rests.ends (serves : Network.Serves id c.shows) (hw : s.Waits c)
    (h : Rests id c s before ps owed v) (hnow : v.host.now = (s.verdict c.attempt).1) :
    ∃ w, Relation.ReflTransGen (Acts id) v w ∧
      w.Ends id (s.afterVerdict c.attempt) (s.verdict c.attempt).1 before := by
  -- a packet counts twice, since it can leave an answer to be given
  generalize hn : 2 * ps.length + owed.length = n
  induction n using Nat.strongRecOn generalizing v ps owed with
  | ind n ih =>
    rcases h.next serves hw with ⟨u, hu, hends | ⟨ps', owed', hrests, hsame, hless⟩⟩ | ⟨-, hearly⟩
    · exact ⟨u, .single hu, hends⟩
    · obtain ⟨w, hw', hends⟩ := ih _ (hn ▸ hless) hrests (hsame.trans hnow) rfl
      exact ⟨w, .head hu hw', hends⟩
    · exact absurd hnow hearly

/-- As long as nothing disturbs a session it waits, or its waiting is over. -/
theorem Run.rests_or_ends (serves : Network.Serves id c.shows) (hw : s.Waits c)
    (hs : u.host.session? id = some s) (hn : Echoed before [] u.notes) (h : Run id c s.stage u v) :
    (∃ ps owed, Rests id c s before ps owed v) ∨
      v.Ends id (s.afterVerdict c.attempt) (s.verdict c.attempt).1 before := by
  induction h with
  | start hs' calm =>
    obtain rfl := Option.some.inj (hs.symm.trans hs')
    exact .inl ⟨_, [], ⟨hs.trans (congrArg some hw.session_eq.symm), nofun, hn, calm⟩⟩
  | acts hv hstage hacts ih =>
    rcases ih with ⟨ps, owed, hrests⟩ | hends
    · rcases hrests.leads serves hw hacts with hends | ⟨ps', owed', hrests', -, -⟩
      · exact .inr hends
      · exact .inl ⟨ps', owed', hrests'⟩
    · -- the session has left the stage, and the run has stopped with that
      exact absurd hstage (hends.left hw)
  | change hv hs' hstage hseat later calm ih =>
    rw [Host.session?, hseat] at hs'
    rcases ih with ⟨ps, owed, hrests⟩ | hends
    · obtain rfl := Option.some.inj (hs'.symm.trans hrests.session)
      refine .inl ⟨_, owed, ⟨?_, hrests.latency, hrests.echoed, calm⟩⟩
      rw [Host.session?, hseat]
      exact hs'
    · exact absurd ⟨_, hs', hstage⟩ (hends.left hw)

/-- The session `s` waits until this time and then becomes `t`. Meanwhile it only answers latency probes,
and when the time has come it gets through with its waiting by itself. -/
inductive Settles (id : SessionId) (s t : Session) (time : Nat) (before : List Act) (v : Vigil σ) : Prop
  | waits (owed : List Client.Packet) (early : v.host.now ≤ time)
      (session : v.host.session? id = some { s with todo := owed.map .tell })
      (echoed : Echoed before owed v.notes)
      (prompt : v.host.now = time → ∃ w, Relation.ReflTransGen (Acts id) v w ∧ w.Ends id t time before)
  | ended (h : v.Ends id t time before)

theorem Settles.ends {x : Session} (h : v.Settles id s t time before) (hx : v.host.session? id = some x)
    (hstage : x.stage ≠ s.stage) : v.Ends id t time before := by
  cases h with
  | waits owed early session echoed prompt =>
    obtain rfl := Option.some.inj (hx.symm.trans session)
    exact absurd rfl hstage
  | ended h => exact h

/-- However long nothing disturbs a session that waits, it goes on waiting until the attempt is over or its
time is up. -/
theorem Run.settles (serves : Network.Serves id c.shows) (hw : s.Waits c)
    (hs : u.host.session? id = some s) (hn : Echoed before [] u.notes) (h : Run id c s.stage u v) :
    v.Settles id s (s.afterVerdict c.attempt) (s.verdict c.attempt).1 before := by
  rcases h.rests_or_ends serves hw hs hn with ⟨ps, owed, hrests⟩ | hends
  · have hearly := Session.le_verdict hrests.calm.early hrests.calm.undue
    exact .waits owed hearly hrests.session hrests.echoed (hrests.ends serves hw)
  · exact .ended hends

end Vigil
end EditionGateway
