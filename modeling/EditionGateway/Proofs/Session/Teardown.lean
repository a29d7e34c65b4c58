import EditionGateway.Proofs.Session.Phases

/-!
The teardown of a session. Whatever ends a session, and whenever it does, the notes about it fall into
those of a session under way and those of the one teardown that its links and its registration ask
for.
-/

namespace EditionGateway

namespace Session

/-! ### How the events change the state and the links -/

theorem fixture_onDone {s : Session} {a : Act} {r : List Act} (ht : s.todo = a :: r) (now : Nat) :
    (s.onDone now).fixture = { s.fixture with
      lifecycle := a.entered?.elim s.lifecycle s.lifecycle.moveTo
      registered := s.registered || decide (a.kind = .register) } := by
  cases a <;> simp [onDone, ht, Act.entered?, Act.kind] <;> simp [fixture]

/-- Only the acts done in the main lane and the opening of the link change what packets leave
alone. -/
theorem fixture_handle (s : Session) (now : Nat) {e : Event} (hd : ∀ u, e ≠ .done .main (.ok u))
    (hc : e.opensLink = false) : (s.handle now e).fixture = s.fixture := by
  cases e with
  | shutdown => rfl
  | timeUp => rfl
  | client r =>
    cases r with
    | error e => rfl
    | ok p =>
      simp only [Session.handle]
      split <;> simp
  | connected r =>
    cases r with
    | error e => rfl
    | ok u => cases hc
  | backend r =>
    cases r with
    | error e => rfl
    | ok p => exact fixture_onBackendPacket s p
  | command k => exact fixture_onCommand s k
  | done lane r =>
    cases r with
    | error e => exact fixture_onFailed s e
    | ok u =>
      cases lane with
      | main => exact absurd rfl (hd u)
      | toBackend => exact fixture_awaitClient _ now
      | toClient => rfl
      | commands => rfl

/-- How an event changes what packets leave alone. -/
inductive Alters (s : Session) (e : Event) (t : Session) : Prop
  | done (a : Act) (rest : List Act) (event : e = .done .main (.ok ())) (todo : s.todo = a :: rest)
      (fixture : t.fixture = { s.fixture with
        lifecycle := a.entered?.elim s.lifecycle s.lifecycle.moveTo
        registered := s.registered || decide (a.kind = .register) })
  | linked (event : e = .connected (.ok ())) (fixture : t.fixture = { s.fixture with linked := true })
  | packet (event : ∀ u, e ≠ .done .main (.ok u)) (link : e.opensLink = false)
      (fixture : t.fixture = s.fixture)

theorem alters {s : Session} {e : Event} (ha : s.admits e) (now : Nat) :
    s.Alters e (s.handle now e) := by
  by_cases hd : ∃ u, e = .done .main (.ok u)
  · obtain ⟨u, rfl⟩ := hd
    obtain ⟨a, hn, -⟩ := admits_done ha
    obtain ⟨rest, ht⟩ := List.head?_eq_some_iff.mp hn
    exact .done a rest rfl ht (fixture_onDone ht now)
  · have hne : ∀ u, e ≠ .done .main (.ok u) := fun u hu => hd ⟨u, hu⟩
    cases hc : e.opensLink with
    | false => exact .packet hne hc (fixture_handle s now hne hc)
    | true =>
      cases e with
      | connected r =>
        cases r with
        | error e => cases hc
        | ok u => exact .linked rfl rfl
      | _ => cases hc

/-- No event changes the configuration of a session. -/
theorem config_handle {s : Session} {e : Event} (ha : s.admits e) (now : Nat) :
    (s.handle now e).threshold = s.threshold ∧ (s.handle now e).converters = s.converters := by
  have hproj {t : Session} {f : Fixture} (h : t.fixture = f) :
      t.threshold = f.threshold ∧ t.converters = f.converters :=
    ⟨congrArg Fixture.threshold h, congrArg Fixture.converters h⟩
  cases alters ha now with
  | done a rest event todo fixture => exact hproj fixture
  | linked event fixture => exact hproj fixture
  | packet event link fixture => exact hproj fixture

/-- A registration is not taken back. -/
theorem unregistered_of_handle {s : Session} {e : Event} (ha : s.admits e) {now : Nat}
    (h : (s.handle now e).registered = false) : s.registered = false := by
  have hproj {f : Fixture} (hf : (s.handle now e).fixture = f) : f.registered = false :=
    (congrArg Fixture.registered hf).symm.trans h
  cases alters ha now with
  | done a rest event todo fixture => exact (Bool.or_eq_false_iff.mp (hproj fixture)).1
  | linked event fixture => exact hproj fixture
  | packet event link fixture => exact hproj fixture

/-- Another state is shown only when it has been entered. -/
theorem entered_of_handle {s : Session} {e : Event} (ha : s.admits e) {now : Nat}
    (h : (s.handle now e).lifecycle ≠ s.lifecycle) : ∃ l rest, e = .done .main (.ok ()) ∧
      s.todo = .enter l :: rest ∧ (s.handle now e).lifecycle = s.lifecycle.moveTo l := by
  cases alters ha now with
  | done a rest event todo fixture =>
    have hlife : (s.handle now e).lifecycle = a.entered?.elim s.lifecycle s.lifecycle.moveTo :=
      congrArg Fixture.lifecycle fixture
    cases hent : a.entered? with
    | none =>
      rw [hent] at hlife
      exact absurd hlife h
    | some l =>
      rw [hent] at hlife
      exact ⟨l, rest, event, Act.eq_enter hent ▸ todo, hlife⟩
  | linked event fixture => exact absurd (congrArg Fixture.lifecycle fixture) h
  | packet event link fixture => exact absurd (congrArg Fixture.lifecycle fixture) h

/-- The head of the agenda of a session under way. -/
theorem UnderWay.head {s : Session} (h : s.UnderWay) {a : Act} {r : List Act}
    (ht : s.todo = a :: r) :
    a.IsOpening ∧ (∀ l, a = .enter l → s.lifecycle.moveTo l = l ∧ s.lifecycle < l) ∧
      (a.kind = .register → s.registered = false ∧ s.lifecycle = .established) := by
  obtain ⟨ps, tail, hps, hp, ha⟩ := h.agenda
  rw [ht] at hps
  cases ps with
  | cons b ps =>
    obtain ⟨rfl, -⟩ := List.cons.inj hps
    have hb := hp a List.mem_cons_self
    refine ⟨hb.isOpening, ?_, ?_⟩
    · rintro l rfl
      exact hb.elim
    · intro hk
      cases a <;> first | exact hb.elim | cases hk
  | nil =>
    rw [List.nil_append] at hps
    subst hps
    generalize s.stage = stage at ha
    generalize s.lifecycle = life at ha ⊢
    generalize s.linked = linked at ha
    generalize s.registered = registered at ha ⊢
    cases ha <;> simp [Act.IsOpening, Act.kind] <;> decide

/-- Registering is only ever next for a session that is not registered. -/
theorem UnderWay.unregistered {s : Session} (h : s.UnderWay) {lane : Lane} {u : String}
    (hn : s.next? lane = some (.register u)) : s.registered = false := by
  cases lane with
  | main =>
    obtain ⟨r, ht⟩ := List.head?_eq_some_iff.mp hn
    exact ((h.head ht).2.2 rfl).1
  | toBackend | toClient | commands =>
    obtain ⟨p, -, hp⟩ := Option.map_eq_some_iff.mp hn
    cases hp

theorem UnderWay.isOpening {s : Session} (h : s.UnderWay) {lane : Lane} {a : Act}
    (hn : s.next? lane = some a) : a.IsOpening := by
  have hq : ∀ p ∈ s.downward ++ s.notices, (Act.tell p).IsOpening := h.plain
  cases lane with
  | main =>
    obtain ⟨r, ht⟩ := List.head?_eq_some_iff.mp hn
    exact (h.head ht).1
  | toBackend =>
    obtain ⟨p, -, rfl⟩ := Option.map_eq_some_iff.mp hn
    trivial
  | toClient =>
    obtain ⟨p, hp, rfl⟩ := Option.map_eq_some_iff.mp hn
    exact hq p (List.mem_append_left _ (List.mem_of_mem_head? hp))
  | commands =>
    obtain ⟨p, hp, rfl⟩ := Option.map_eq_some_iff.mp hn
    exact hq p (List.mem_append_right _ (List.mem_of_mem_head? hp))

end Session

namespace Notes

/-- What the notes about a session are like that is over, having ended because of `e`. `last` says
that everything else has been done before the session shows that it is closed. -/
structure Concluded (n : Notes) (e : GatewayError) : Prop where
  ascending : (history n).Pairwise (· < ·)
  ends : [.closing, .closed] <:+ history n
  last : n.getLast? = some (.became .closed)
  client : count n .closeClient = 1
  backend : count n .closeBackend ≤ 1 ∧ (count n .closeBackend = 1 ↔ Linked n)
  registry : count n .deregister ≤ 1 ∧ (count n .deregister = 1 ↔ Registered n)
  farewell : ∃ before last, tells n = before ++ last ∧ (∀ t ∈ before, t.1.kind ≠ .disconnect) ∧
    last.map (·.1) = if e.clientReachable then [.farewell e.disconnectReason.message] else []

end Notes

namespace Course

open Notes

/-- The notes are those of a session under way, and the state is the last one shown. -/
structure Told (c : Course) : Prop where
  early : Early c.notes c.session.linked c.session.registered
  last : (history c.notes).getLast? = some c.session.lifecycle

/-- A session under way, with the notes about it. -/
structure Open (c : Course) : Prop extends Told c where
  underWay : c.session.UnderWay
  unregistered : c.session.registered = false → count c.notes .register = 0

theorem open_start (config : GatewayConfig) (t : Converters) (id : SessionId) (now : Nat) :
    (start config t id now).Open where
  early := early_nil
  last := rfl
  underWay := Session.underWay_start config t id now
  unregistered _ := rfl

theorem history_noted (n : Notes) (s : Session) (e : Event) :
    history (n ++ s.noted e) = history n := by
  have hs : states (s.noted e) = [] := by
    cases e with
    | done lane r =>
      simp only [Session.noted]
      cases s.next? lane <;> rfl
    | _ => rfl
  simp [history, hs]

/-- What is shown after an event is the new state, if it is another one. -/
theorem told_shown {n : Notes} {s t : Session} (he : Early n t.linked t.registered)
    (hl : (history n).getLast? = some s.lifecycle)
    (hs : t.lifecycle = s.lifecycle ∨ s.lifecycle < t.lifecycle ∧ t.lifecycle < .closing) :
    Told { session := t, notes := n ++ s.shown t } := by
  unfold Session.shown
  split
  · next heq =>
    rw [List.append_nil]
    exact ⟨he, hl.trans (congrArg some heq.symm)⟩
  · next hne =>
    obtain ⟨hlt, hc⟩ := hs.resolve_left hne
    refine ⟨he.became hl hlt hc, ?_⟩
    rw [history_became, List.getLast?_concat]

namespace Open

variable {c : Course}

theorem noted_done (h : c.Open) {lane : Lane} {a : Act} (hn : c.session.next? lane = some a)
    (r : Except GatewayError Unit) :
    Early (c.notes ++ c.session.noted (.done lane r)) c.session.linked
      (c.session.registered || (decide (a.kind = .register) && r.toBool)) := by
  rw [Session.noted_done hn]
  refine h.early.did (h.underWay.isOpening hn) (fun hk => ?_) lane r
  cases lane with
  | main =>
    obtain ⟨t, ht⟩ := List.head?_eq_some_iff.mp hn
    obtain ⟨hr, hl⟩ := (h.underWay.head ht).2.2 hk
    exact ⟨h.unregistered hr, h.last.trans (congrArg some hl)⟩
  | toBackend | toClient | commands =>
    obtain ⟨p, -, rfl⟩ := Option.map_eq_some_iff.mp hn
    cases hk

theorem noted_other (h : c.Open) {e : Event} (hd : ∀ u, e ≠ .done .main (.ok u))
    (hc : e.opensLink = false) :
    Early (c.notes ++ c.session.noted e) c.session.linked c.session.registered := by
  have hheard := h.early.heard e
  rw [hc, Bool.or_false] at hheard
  cases e with
  | done lane r =>
    cases hn : c.session.next? lane with
    | none => simpa [Session.noted, hn] using h.early
    | some a =>
      have he := h.noted_done hn r
      suffices hz : (decide (a.kind = .register) && r.toBool) = false by
        rwa [hz, Bool.or_false] at he
      cases lane with
      | main =>
        cases r with
        | ok u => exact absurd rfl (hd u)
        | error e => exact Bool.and_false _
      | toBackend | toClient | commands =>
        obtain ⟨p, -, rfl⟩ := Option.map_eq_some_iff.mp hn
        rfl
  | _ => exact hheard

theorem told_next (h : c.Open) {e : Event} (ha : c.session.admits e) (now : Nat) :
    Told { session := c.session.handle now e,
           notes := c.notes ++ c.session.noted e ++ c.session.shown (c.session.handle now e) } := by
  have hlast : (history (c.notes ++ c.session.noted e)).getLast? = some c.session.lifecycle := by
    rw [history_noted]
    exact h.last
  have hproj {f : Session.Fixture} (hf : (c.session.handle now e).fixture = f) :
      (c.session.handle now e).lifecycle = f.lifecycle ∧ (c.session.handle now e).linked = f.linked ∧
        (c.session.handle now e).registered = f.registered :=
    ⟨congrArg Session.Fixture.lifecycle hf, congrArg Session.Fixture.linked hf,
      congrArg Session.Fixture.registered hf⟩
  cases Session.alters ha now with
  | done a rest event todo fixture =>
    obtain ⟨hlife, hlinked, hregistered⟩ := hproj fixture
    refine told_shown ?_ hlast ?_
    · have he := h.noted_done (Session.next?_main todo) (.ok ())
      rw [hlinked, hregistered, event]
      simpa [Except.toBool, Session.fixture] using he
    · rw [hlife]
      cases hent : a.entered? with
      | none => exact .inl rfl
      | some l =>
        obtain rfl := Act.eq_enter hent
        obtain ⟨ho, hm, -⟩ := h.underWay.head todo
        simp only [Option.elim_some, (hm l rfl).1]
        exact .inr ⟨(hm l rfl).2, ho⟩
  | linked event fixture =>
    obtain ⟨hlife, hlinked, hregistered⟩ := hproj fixture
    refine told_shown ?_ hlast (.inl hlife)
    rw [hlinked, hregistered, event]
    have he := h.early.heard (.connected (.ok ()))
    rwa [Event.opensLink, Bool.or_true] at he
  | packet event link fixture =>
    obtain ⟨hlife, hlinked, hregistered⟩ := hproj fixture
    refine told_shown ?_ hlast (.inl hlife)
    rw [hlinked, hregistered]
    exact h.noted_other event link

end Open

theorem count_shown (s t : Session) (k : Act.Kind) : count (s.shown t) k = 0 := by
  unfold Session.shown
  split <;> rfl

/-- Registering is tried only once: a session that has not registered and is still under way has
not tried. -/
theorem Open.unregistered_next {c : Course} (h : c.Open) {e : Event} (ha : c.session.admits e)
    {now : Nat} (hs : (c.session.handle now e).UnderWay)
    (hn : ¬ Registered (c.notes ++ c.session.noted e ++ c.session.shown (c.session.handle now e))) :
    count (c.notes ++ c.session.noted e ++ c.session.shown (c.session.handle now e)) .register = 0 := by
  have hc : count c.notes .register = 0 := by
    refine h.unregistered (Bool.eq_false_iff.mpr fun hr => hn ?_)
    obtain ⟨lane, u, hm⟩ := h.early.registered_iff.mp hr
    exact ⟨lane, u, List.mem_append_left _ (List.mem_append_left _ hm)⟩
  have hnoted : count (c.session.noted e) .register = 0 := by
    cases e with
    | done lane r =>
      obtain ⟨a, hnext, -⟩ := Session.admits_done ha
      have heq := Session.noted_done hnext r
      cases a with
      | register u =>
        cases r with
        | ok v =>
          refine absurd ⟨lane, u, List.mem_append_left _ (List.mem_append_right _ ?_)⟩ hn
          rw [heq]
          exact List.mem_singleton.mpr rfl
        | error e =>
          rw [h.underWay.handle_failed] at hs
          exact absurd rfl (hs.not_ending e)
      | _ => rw [heq]; rfl
    | _ => rfl
  rw [count_append, count_append, hc, hnoted, count_shown]

end Course

/-! ### The teardown -/

namespace Session

theorem ending?_eq_some {s : Session} {e : GatewayError} :
    s.ending? = some e ↔ s.stage = .ending e ∧ s.todo = [] := by
  unfold ending?
  split
  · next hs ht => simp [hs, ht]
  · next hno =>
    constructor
    · nofun
    · rintro ⟨hs, ht⟩
      exact absurd ht (hno e hs)

theorem entered_teardown (s : Session) (e : GatewayError) :
    (s.teardown e).filterMap Act.entered? = [.closing, .closed] := by
  unfold teardown
  cases s.registered <;> cases s.linked <;> cases e.clientReachable <;> rfl

theorem getLast?_teardown (s : Session) (e : GatewayError) :
    (s.teardown e).getLast? = some (.enter .closed) := by
  unfold teardown
  rw [List.getLast?_concat]

theorem told_teardown (s : Session) (e : GatewayError) :
    (s.teardown e).filterMap Act.told? =
      if e.clientReachable then [.farewell e.disconnectReason.message] else [] := by
  unfold teardown
  cases s.registered <;> cases s.linked <;> cases e.clientReachable <;> rfl

theorem count_teardown_closeClient (s : Session) (e : GatewayError) :
    (s.teardown e).countP (·.kind = .closeClient) = 1 := by
  unfold teardown
  cases s.registered <;> cases s.linked <;> cases e.clientReachable <;> rfl

theorem count_teardown_closeBackend (s : Session) (e : GatewayError) :
    (s.teardown e).countP (·.kind = .closeBackend) = s.linked.toNat := by
  unfold teardown
  cases s.registered <;> cases s.linked <;> cases e.clientReachable <;> rfl

theorem count_teardown_deregister (s : Session) (e : GatewayError) :
    (s.teardown e).countP (·.kind = .deregister) = s.registered.toNat := by
  unfold teardown
  cases s.registered <;> cases s.linked <;> cases e.clientReachable <;> rfl

theorem mem_teardown {s : Session} {e : GatewayError} {a : Act} (h : a ∈ s.teardown e) :
    a = .stopListening ∨ a = .enter .closing ∨ a = .tell (.farewell e.disconnectReason.message) ∨
      a = .closeClient ∨ a = .closeBackend ∨ a = .deregister ∨ a = .enter .closed := by
  unfold teardown at h
  cases s.registered <;> cases s.linked <;> cases e.clientReachable <;> simp at h <;> grind

namespace Ending

variable {s : Session} {e : GatewayError}

/-- A session that is being torn down hears nothing more. -/
theorem admits (h : s.Ending e) {ev : Event} (ha : s.admits ev) :
    ∃ a r rest, ev = .done .main r ∧ s.todo = a :: rest ∧ (r = .ok () ∨ a.canFail) := by
  have hs := h.stage
  cases ev with
  | shutdown => rcases admits_shutdown ha with ⟨hs' | hs', -⟩ | hs' <;> simp [hs] at hs'
  | timeUp => exact absurd hs (admits_timeUp ha e)
  | client r => rcases admits_client ha with ⟨hs' | hs', -⟩ | ⟨hs', -⟩ <;> simp [hs] at hs'
  | connected r => exact absurd (hs.symm.trans (admits_connected ha).1) nofun
  | backend r => exact absurd (hs.symm.trans (admits_backend ha).1) nofun
  | command k => exact absurd (hs.symm.trans (admits_command ha).1) nofun
  | done lane r =>
    obtain ⟨a, hn, hr⟩ := admits_done ha
    cases lane with
    | main =>
      obtain ⟨rest, ht⟩ := List.head?_eq_some_iff.mp hn
      exact ⟨a, r, rest, rfl, ht, hr⟩
    | toBackend => simp [next?, h.upward] at hn
    | toClient => simp [next?, h.downward] at hn
    | commands => simp [next?, h.notices] at hn

theorem handle_done (h : s.Ending e) {a : Act} {rest : List Act} (ht : s.todo = a :: rest)
    (hc : ∀ c, a ≠ .connect c) (hg : ∀ u, a ≠ .register u) {r : Except GatewayError Unit}
    (hr : r = .ok () ∨ a.canFail) (now : Nat) :
    s.handle now (.done .main r) =
      { s with todo := rest, lifecycle := a.entered?.elim s.lifecycle s.lifecycle.moveTo } := by
  have hs := h.stage
  cases r with
  | error err =>
    have hf : a.entered? = none := by
      cases a <;> first | rfl | simp [Act.canFail, Act.kind] at hr
    simp [handle, onFailed, hs, ht, hf]
  | ok u =>
    cases a with
    | connect c => exact absurd rfl (hc c)
    | register u => exact absurd rfl (hg u)
    | _ => simp [handle, onDone, settle, ht, hs, Act.entered?]

end Ending
end Session

namespace Course

open Notes

/-- A session that has begun to end because of `e`, with the notes about it: those made before and
those of the teardown so far. -/
structure Closing (c : Course) (e : GatewayError) : Prop where
  ending : c.session.Ending e
  last : (history c.notes).getLast? = some c.session.lifecycle
  split : ∃ n m, c.notes = n ++ m ∧ Early n c.session.linked c.session.registered ∧
    Late (c.session.teardown e) c.session.todo m

/-- An event leaves a session under way, or makes it begin to end. -/
theorem Open.next {c : Course} (h : c.Open) (hc : c.session.converters.Discreet) {e : Event}
    (ha : c.session.admits e) (now : Nat) :
    let d : Course := {
      session := c.session.handle now e
      notes := c.notes ++ c.session.noted e ++ c.session.shown (c.session.handle now e) }
    d.Open ∨ ∃ e, d.Closing e := by
  intro d
  have ht : d.Told := h.told_next ha now
  rcases h.underWay.handle hc ha now with hs | ⟨e', hs, htodo⟩
  · refine .inl ⟨ht, hs, fun hr => h.unregistered_next ha hs fun hn => ?_⟩
    rw [ht.early.registered_iff.mpr hn] at hr
    cases hr
  · refine .inr ⟨e', hs, ht.last, d.notes, [], (List.append_nil _).symm, ht.early, ?_⟩
    rw [htodo]
    exact late_nil _

namespace Closing

variable {c : Course} {e : GatewayError}

/-- The states that are still to be entered, by the one that is shown. -/
theorem progress (h : c.Closing e) :
    (c.session.todo.filterMap Act.entered? = [.closing, .closed] ∧ c.session.lifecycle < .closing ∧
      (c.session.registered = true → c.session.lifecycle = .established)) ∨
    (c.session.todo.filterMap Act.entered? = [.closed] ∧ c.session.lifecycle = .closing) ∨
    c.session.todo.filterMap Act.entered? = [] := by
  obtain ⟨n, m, hn, he, hm⟩ := h.split
  have hlast := h.last
  have hstates : states m ++ c.session.todo.filterMap Act.entered? = [.closing, .closed] := by
    rw [hm.entered, ← Session.entered_teardown c.session e, ← hm.planned, List.filterMap_append]
  rw [hn, history, states_append, ← List.cons_append] at hlast
  cases hs : states m with
  | nil =>
    -- The state is still the last one that was shown before the teardown.
    rw [hs, List.append_nil] at hlast
    refine .inl ⟨by rwa [hs] at hstates, he.opened _ (List.mem_of_getLast? hlast), fun hr => ?_⟩
    exact Option.some.inj (hlast.symm.trans (he.settled hr))
  | cons x xs =>
    rw [hs] at hstates
    obtain ⟨rfl, hxs⟩ := List.cons.inj hstates
    cases xs with
    | nil =>
      rw [hs, List.getLast?_concat] at hlast
      exact .inr (.inl ⟨hxs, (Option.some.inj hlast).symm⟩)
    | cons y ys =>
      obtain ⟨-, hys⟩ := List.cons.inj hxs
      exact .inr (.inr (List.append_eq_nil_iff.mp hys).2)

/-- In a teardown the state is the last one entered before it, then `closing`, then `closed`. -/
theorem entering (h : c.Closing e) {l : Lifecycle} {rest : List Act}
    (ht : c.session.todo = .enter l :: rest) :
    c.session.lifecycle.moveTo l = l ∧ c.session.lifecycle < l := by
  have hentered : c.session.todo.filterMap Act.entered? = l :: rest.filterMap Act.entered? := by
    rw [ht]
    rfl
  rcases h.progress with ⟨htodo, hlt, -⟩ | ⟨htodo, hl⟩ | htodo
  · obtain ⟨rfl, -⟩ := List.cons.inj (hentered.symm.trans htodo)
    exact ⟨Lifecycle.moveTo_closing hlt, hlt⟩
  · obtain ⟨rfl, -⟩ := List.cons.inj (hentered.symm.trans htodo)
    rw [hl]
    decide
  · rw [hentered] at htodo
    cases htodo

theorem mem_teardown (h : c.Closing e) {lane : Lane} {a : Act} (hn : c.session.next? lane = some a) :
    a ∈ c.session.teardown e := by
  obtain ⟨n, m, -, -, hm⟩ := h.split
  cases lane with
  | main =>
    obtain ⟨rest, ht⟩ := List.head?_eq_some_iff.mp hn
    rw [← hm.planned, ht]
    simp
  | toBackend => simp [Session.next?, h.ending.upward] at hn
  | toClient => simp [Session.next?, h.ending.downward] at hn
  | commands => simp [Session.next?, h.ending.notices] at hn

/-- The states that an act of a teardown leads to are shown. -/
theorem shown_done (h : c.Closing e) {a : Act} {rest : List Act} (ht : c.session.todo = a :: rest) :
    c.session.shown { c.session with
        todo := rest
        lifecycle := a.entered?.elim c.session.lifecycle c.session.lifecycle.moveTo } =
      (a.entered?.map Note.became).toList := by
  cases ha : a.entered? with
  | none => simp [Session.shown]
  | some l =>
    obtain rfl := Act.eq_enter ha
    obtain ⟨hmove, hlt⟩ := h.entering ht
    simp [Session.shown, hmove, (Lifecycle.ne_of_lt hlt).symm]

/-- A teardown goes on to its next act, whether or not the one before has succeeded. -/
theorem next (h : c.Closing e) {ev : Event} (ha : c.session.admits ev) (now : Nat) :
    Closing {
      session := c.session.handle now ev
      notes := c.notes ++ c.session.noted ev ++ c.session.shown (c.session.handle now ev) } e := by
  obtain ⟨a, r, rest, rfl, ht, hr⟩ := h.ending.admits ha
  obtain ⟨n, m, hn, he, hm⟩ := h.split
  have hkind := Session.mem_teardown (h.mem_teardown (Session.next?_main ht))
  have hs := h.ending.handle_done ht (by rintro x rfl; simp at hkind)
    (by rintro x rfl; simp at hkind) hr now
  have hnoted : c.session.noted (.done .main r) = [.did .main a r] := Session.noted_main ht r
  rw [hnoted, hs, h.shown_done ht]
  refine ⟨⟨h.ending.stage, h.ending.upward, h.ending.downward, h.ending.notices⟩, ?_, n,
    m ++ [.did .main a r] ++ (a.entered?.map Note.became).toList, ?_, he, (ht ▸ hm).next .main r⟩
  · have hlast := h.last
    rw [← history_noted _ c.session (.done .main r), hnoted] at hlast
    cases hent : a.entered? with
    | none => simpa using hlast
    | some l =>
      obtain rfl := Act.eq_enter hent
      simp only [Option.elim_some, Option.map_some, Option.toList_some, history_became,
        List.getLast?_concat, (h.entering ht).1]
  · simp only [hn, List.append_assoc]

/-- Nothing of what was noted in a teardown opens a link or registers the session. -/
theorem notes_iff (h : c.Closing e) :
    (c.session.linked = true ↔ Linked c.notes) ∧ (c.session.registered = true ↔ Registered c.notes) := by
  obtain ⟨n, m, hn, he, hm⟩ := h.split
  constructor
  · have hlink : Linked (n ++ m) ↔ Linked n := by
      simp [Linked, List.mem_append, hm.unheard]
    rw [hn, hlink]
    exact he.linked_iff
  · have hreg : Registered (n ++ m) ↔ Registered n := by
      constructor
      · rintro ⟨lane, u, hu⟩
        rcases List.mem_append.mp hu with hu | hu
        · exact ⟨lane, u, hu⟩
        · have ha : Act.register u ∈ c.session.teardown e := by
            rw [← hm.planned]
            exact List.mem_append_left _ (mem_acts hu)
          have hk := Session.mem_teardown ha
          simp at hk
      · rintro ⟨lane, u, hu⟩
        exact ⟨lane, u, List.mem_append_left _ hu⟩
    rw [hn, hreg]
    exact he.registered_iff

/-- When nothing is left to do, all of the one teardown has been done. -/
theorem concluded (h : c.Closing e) (ht : c.session.todo = []) : Concluded c.notes e := by
  obtain ⟨hlinked, hregistered⟩ := h.notes_iff
  obtain ⟨n, m, hn, he, hm⟩ := h.split
  rw [ht] at hm
  have hacts : acts m = c.session.teardown e := by
    rw [← hm.planned, List.append_nil]
  have hhistory : history c.notes = history n ++ [.closing, .closed] := by
    rw [hn, history, states_append, hm.entered, hacts, Session.entered_teardown]
    rfl
  -- What counts is only in the teardown, each at most once.
  have hcount {k : Act.Kind} (hk : k = .closeClient ∨ k = .closeBackend ∨ k = .deregister) :
      count c.notes k = (c.session.teardown e).countP (·.kind = k) := by
    rw [hn, count_append, he.count_eq_zero hk, Nat.zero_add, count, hacts]
  refine ⟨?_, ⟨history n, hhistory.symm⟩, ?_, ?_, ?_, ?_, tells n, tells m, ?_, he.tells_stay, ?_⟩
  · rw [hhistory]
    refine List.pairwise_append.mpr ⟨he.ascending, by decide, fun a ha b hb => ?_⟩
    have hc := he.opened a ha
    rcases List.mem_cons.mp hb with rfl | hb
    · exact hc
    · obtain rfl := List.mem_singleton.mp hb
      exact Lifecycle.lt_trans hc (by decide)
  · rw [hn, List.getLast?_append, hm.last rfl .closed (Session.getLast?_teardown _ _)]
    rfl
  · rw [hcount (by simp)]
    exact Session.count_teardown_closeClient _ _
  · rw [hcount (by simp), ← hlinked, Session.count_teardown_closeBackend]
    cases c.session.linked <;> simp
  · rw [hcount (by simp), ← hregistered, Session.count_teardown_deregister]
    cases c.session.registered <;> simp
  · rw [hn, tells_append]
  · rw [map_tells, hacts]
    exact Session.told_teardown _ _

end Closing

/-- A session that converts with `t`, and is under way or in its teardown. -/
structure Orderly (t : Converters) (c : Course) : Prop where
  converters : c.session.converters = t
  phase : c.Open ∨ ∃ e, c.Closing e

theorem orderly_start (config : GatewayConfig) (t : Converters) (id : SessionId) (now : Nat) :
    Orderly t (start config t id now) :=
  ⟨rfl, .inl (open_start config t id now)⟩

namespace Orderly

variable {t : Converters} {c : Course}

theorem underWay (h : Orderly t c) (hs : ∀ e, c.session.stage ≠ .ending e) : c.session.UnderWay := by
  rcases h.phase with ho | ⟨e, hc⟩
  · exact ho.underWay
  · exact absurd hc.ending.stage (hs e)

/-- A session that has begun to end is in its teardown. -/
theorem closing (h : Orderly t c) {e : GatewayError} (hs : c.session.stage = .ending e) :
    c.Closing e := by
  rcases h.phase with ho | ⟨e', hc⟩
  · exact absurd hs (ho.underWay.not_ending e)
  · obtain rfl := Stage.ending.inj (hc.ending.stage.symm.trans hs)
    exact hc

theorem next (h : Orderly t c) (ht : t.Discreet) {e : Event} (ha : c.session.admits e) (now : Nat) :
    Orderly t {
      session := c.session.handle now e
      notes := c.notes ++ c.session.noted e ++ c.session.shown (c.session.handle now e) } where
  converters := (Session.config_handle ha now).2.trans h.converters
  phase := by
    rcases h.phase with ho | ⟨e', hc⟩
    · exact ho.next (h.converters ▸ ht) ha now
    · exact .inr ⟨e', hc.next ha now⟩

/-- What holds of an orderly session, and is kept by every event of some sort, holds all along while
only such events happen. -/
theorem induction_on {P : Course → Prop} {Q : Event → Prop} (h : Orderly t c) (ht : t.Discreet)
    (hc : P c)
    (step : ∀ (c : Course) (now : Nat) (e : Event), Orderly t c → P c → c.session.admits e → Q e →
      P { session := c.session.handle now e,
          notes := c.notes ++ c.session.noted e ++ c.session.shown (c.session.handle now e) })
    (es : List (Nat × Event)) (hes : ∀ o ∈ es, Q o.2) : P (c.after es) := by
  refine (after_induction (P := fun c => Orderly t c ∧ P c) ⟨h, hc⟩ ?_ es hes).2
  rintro c now e ⟨ho, hp⟩ ha hq
  exact ⟨ho.next ht ha now, step c now e ho hp ha hq⟩

/-- What holds of an orderly session, and is kept by every event, holds all along. -/
theorem induction {P : Course → Prop} (h : Orderly t c) (ht : t.Discreet) (hc : P c)
    (step : ∀ (c : Course) (now : Nat) (e : Event), Orderly t c → P c → c.session.admits e →
      P { session := c.session.handle now e,
          notes := c.notes ++ c.session.noted e ++ c.session.shown (c.session.handle now e) })
    (es : List (Nat × Event)) : P (c.after es) :=
  h.induction_on (Q := fun _ => True) ht hc (fun c now e ho hp ha _ => step c now e ho hp ha) es
    fun _ _ => trivial

end Orderly

/-- Every session is under way or in its teardown, whatever happens to it. -/
theorem orderly_after (config : GatewayConfig) {t : Converters} (ht : t.Discreet) (id : SessionId)
    (now : Nat) (es : List (Nat × Event)) : Orderly t ((start config t id now).after es) := by
  have hstart := orderly_start config t id now
  refine hstart.induction (P := Orderly t) ht hstart ?_ es
  exact fun c now e ho _ ha => ho.next ht ha now

end Course
end EditionGateway
