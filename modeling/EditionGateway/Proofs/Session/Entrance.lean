import EditionGateway.Proofs.Session.Gate

/-!
A client is let in with the packet that makes what it has sent admissible, and only then is the backend
asked for.
-/

namespace EditionGateway

open Client.Packet Notes

/-- Nothing goes wrong but what the client sends. -/
def Event.IsCalm : Event → Prop
  | .shutdown | .timeUp | .client (.error _) | .done _ (.error _) => False
  | _ => True

namespace Session

/-! ### What a session does after the handshake -/

/-- A session that is past its handshake. -/
def IsPast (s : Session) : Prop :=
  s.stage = .linking ∨ s.stage = .joining ∨ s.stage = .forwarding ∨ ∃ e, s.stage = .ending e

theorem IsPast.not_handshake {s : Session} (h : s.IsPast) : s.stage ≠ .handshake := by
  rcases h with h | h | h | ⟨e, h⟩ <;> simp [h]

theorem IsPast.not_refusing {s : Session} (h : s.IsPast) (e : GatewayError) :
    s.stage ≠ .refusing e := by
  rcases h with h | h | h | ⟨e, h⟩ <;> simp [h]

/-- A session stays past its handshake and does not begin to connect again. -/
def Proceeds (s t : Session) : Prop :=
  t.IsPast ∧ ∀ a ∈ t.todo, a.kind = .connect → a ∈ s.todo

theorem proceeds_fail (s : Session) (e : GatewayError) : Proceeds s (s.fail e) := by
  refine ⟨.inr (.inr (.inr ⟨e, rfl⟩)), fun a ha hk => ?_⟩
  exact absurd (.inl hk) (s.quiet_teardown e a ha)

theorem proceeds_settle {s t : Session} (h : Proceeds s t) (now : Nat) :
    Proceeds s (t.settle now) := by
  unfold settle
  split
  · next hs _ => exact absurd hs (h.1.not_refusing _)
  · next hs ht =>
    unfold awaitClient
    split
    · exact ⟨.inr (.inr (.inl rfl)), h.2⟩
    · exact ⟨.inr (.inr (.inl rfl)), h.2⟩
  · exact h

theorem proceeds_onDone {s : Session} (h : s.IsPast) (now : Nat) : Proceeds s (s.onDone now) := by
  cases ht : s.todo with
  | nil =>
    rw [onDone_nil ht]
    exact ⟨h, fun a ha _ => ha⟩
  | cons a rest =>
    have hrest : ∀ b ∈ rest, b.kind = .connect → b ∈ s.todo := by
      rw [ht]
      exact fun b hb _ => List.mem_cons_of_mem a hb
    unfold onDone
    rw [ht]
    dsimp only
    split
    · apply proceeds_settle
      exact ⟨h, hrest⟩
    · exact ⟨.inl rfl, hrest⟩
    · apply proceeds_settle
      refine ⟨h, fun b hb hk => ?_⟩
      obtain ⟨p, -, rfl⟩ := List.mem_map.mp hb
      cases hk
    · apply proceeds_settle
      exact ⟨h, hrest⟩

theorem proceeds_handle {s : Session} (h : s.IsPast) (now : Nat) (e : Event) :
    Proceeds s (s.handle now e) := by
  have hself : Proceeds s s := ⟨h, fun a ha _ => ha⟩
  have hawait {t : Session} (ht : Proceeds s t) : Proceeds s (t.awaitClient now) := by
    unfold awaitClient
    split
    · exact ht
    · exact ht
  have hgated (p : Client.Packet) : Proceeds s (s.onGated p) := by
    unfold onGated
    split
    · exact ⟨h, by simp [Act.kind]⟩
    · exact proceeds_fail s _
    · exact hself
  cases e with
  | shutdown => exact proceeds_fail s _
  | timeUp => exact proceeds_fail s _
  | client r =>
    cases r with
    | error e => exact proceeds_fail s e
    | ok p =>
      simp only [handle]
      split
      · next hs => exact absurd hs h.not_handshake
      · unfold onClientPacket
        split
        · exact proceeds_fail s _
        · exact hawait hself
      · exact hgated p
  | connected r =>
    cases r with
    | error e => exact proceeds_fail s _
    | ok u => exact ⟨.inr (.inl rfl), by simp [handle, Act.kind]⟩
  | backend r =>
    cases r with
    | error e => exact proceeds_fail s e
    | ok p =>
      simp only [handle, onBackendPacket]
      split
      · exact proceeds_fail s _
      · exact hself
  | command k =>
    cases k with
    | close reason => exact proceeds_fail s _
    | sendMessage text => exact hself
  | done lane r =>
    cases r with
    | error e =>
      simp only [handle, onFailed]
      split
      · exact ⟨h, fun a ha _ => List.mem_of_mem_tail ha⟩
      · exact proceeds_fail s e
    | ok u =>
      cases lane with
      | main => exact proceeds_onDone h now
      | toBackend => exact hawait hself
      | toClient => exact hself
      | commands => exact hself

/-! ### What a session does in the handshake -/

/-- What is done in most cases: the first thing to do is taken off the list. -/
theorem onDone_quiet {s : Session} {a : Act} {rest : List Act} (ht : s.todo = a :: rest)
    (ha : ¬ a.Engages) (now : Nat) : s.onDone now = ({ s with
      todo := rest, lifecycle := a.entered?.elim s.lifecycle s.lifecycle.moveTo } : Session).settle now := by
  cases a with
  | connect c => exact absurd (.inl rfl) ha
  | register u => exact absurd (.inr rfl) ha
  | _ => simp [onDone, ht, Act.entered?]

theorem onDone_handshake {s : Session} (hs : s.stage = .handshake) {a : Act} {rest : List Act}
    (ht : s.todo = a :: rest) (ha : ¬ a.Engages) (now : Nat) : s.onDone now = { s with
      todo := rest, lifecycle := a.entered?.elim s.lifecycle s.lifecycle.moveTo } := by
  rw [onDone_quiet ht ha]
  simp [settle, hs]

/-- What is done on the way does not change where a session is bound for. -/
theorem bound_done {s : Session} (h : s.UnderWay) {a : Act} {rest : List Act}
    (ht : s.todo = a :: rest) :
    bound { s with todo := rest, lifecycle := a.entered?.elim s.lifecycle s.lifecycle.moveTo } =
      s.bound := by
  simp only [bound, ht]
  cases ha : a.entered? with
  | none => rw [List.filterMap_cons_none ha, Option.elim_none]
  | some l =>
    obtain rfl := Act.eq_enter ha
    rw [List.filterMap_cons_some ha, Option.elim_some, ((h.head ht).2.1 l rfl).1, List.getLast?_cons]
    cases (rest.filterMap Act.entered?).getLast? <;> rfl

/-- While the handshake goes on, a session hears of its client when it has nothing to do, and
otherwise of what has been done. -/
theorem calm_cases {s : Session} (h : s.UnderWay)
    (hs : s.stage = .handshake ∨ ∃ e, s.stage = .refusing e) {e : Event} (ha : s.admits e)
    (hc : e.IsCalm) : (∃ p, e = .client (.ok p) ∧ s.todo = [] ∧ s.stage = .handshake) ∨
      ∃ a rest, e = .done .main (.ok ()) ∧ s.todo = a :: rest := by
  have hno (hp : s.IsPast) : False := by
    rcases hs with hs | ⟨e, hs⟩
    · exact hp.not_handshake hs
    · exact hp.not_refusing e hs
  cases e with
  | shutdown => exact hc.elim
  | timeUp => exact hc.elim
  | client r =>
    cases r with
    | error e => exact hc.elim
    | ok p =>
      rcases admits_client ha with ⟨hs' | hs', ht⟩ | ⟨hs', -⟩
      · exact .inl ⟨p, rfl, ht, hs'⟩
      · exact (hno (.inl hs')).elim
      · exact (hno (.inr (.inr (.inl hs')))).elim
  | connected r => exact (hno (.inl (admits_connected ha).1)).elim
  | backend r => exact (hno (.inr (.inr (.inl (admits_backend ha).1)))).elim
  | command k => exact (hno (.inr (.inr (.inl (admits_command ha).1)))).elim
  | done lane r =>
    cases r with
    | error e => exact hc.elim
    | ok u =>
      obtain ⟨a, hn, -⟩ := admits_done ha
      by_cases hl : lane = .main
      · subst hl
        obtain ⟨rest, ht⟩ := List.head?_eq_some_iff.mp hn
        exact .inr ⟨a, rest, rfl, ht⟩
      · exact (hno (.inr (.inr (.inl (h.next?_lane hn hl))))).elim

end Session

namespace Course

/-- A session whose client may still be let in. -/
structure Waiting (c : Course) : Prop where
  stage : c.session.stage = .handshake
  promising : Promising (reads c.notes) c.session.context
  bound : c.session.bound = c.session.context.due
  latency : latency (told c.notes ++ c.session.replies) = echoes (reads c.notes)
  courtesy : courtesy (told c.notes ++ c.session.replies) =
    c.session.context.greetings c.session.threshold
  quiet : ∀ a ∈ acts c.notes ++ c.session.todo, ¬ a.Engages

/-- What a client is told that is let in. -/
def welcome (threshold : UInt16) (v : Client.Version) : List Client.Packet :=
  [.networkSettings threshold, .playStatus .loginSuccess, .resourcePacksInfo false [],
    .resourcePackStack false [] v.name]

/-- A session whose client has sent all that it takes, with these notes until now. -/
structure Convinced (c : Course) (n : Notes) (v : Client.Version) (k : Credentials) : Prop where
  admissible : Admissible (reads n) v k
  latency : latency (told n ++ c.session.replies) = echoes (reads n)
  courtesy : courtesy (told n ++ c.session.replies) = welcome c.session.threshold v
  quiet : ∀ a ∈ acts n, ¬ a.Engages

/-- A session that is about to let its client in. -/
structure Accepting (c : Course) (v : Client.Version) (k : Credentials) : Prop where
  stage : c.session.stage = .handshake
  convinced : c.Convinced c.notes v k
  todo : (∃ as, (∀ a ∈ as, a.kind = .tell) ∧
      c.session.todo = as ++ [.enter .linkingBackend, .connect k]) ∨
    ∃ n, c.notes = n ++ [.became .linkingBackend] ∧ c.session.todo = [.connect k]

/-- A session that has let its client in, and nobody else. -/
structure Passed (c : Course) : Prop where
  past : c.session.IsPast
  split : ∃ before after v k,
    c.notes = before ++ .became .linkingBackend :: .did .main (.connect k) (.ok ()) :: after ∧
    Admissible (reads before) v k ∧ EditionGateway.latency (told before) = echoes (reads before) ∧
    EditionGateway.courtesy (told before) = welcome c.session.threshold v ∧
    (∀ a ∈ acts before, ¬ a.Engages) ∧ ∀ a ∈ acts after ++ c.session.todo, a.kind ≠ .connect

/-- A session that does not let its client in any more. -/
structure Shut (c : Course) : Prop where
  stage : ∃ e, c.session.stage = .refusing e ∨ c.session.stage = .ending e
  doomed : Doomed (reads c.notes)
  refused : ∀ qs v k, qs <+: reads c.notes → ¬ Admissible qs v k
  latency : latency (told c.notes ++ c.session.replies) = echoes (reads c.notes)
  quiet : ∀ a ∈ acts c.notes ++ c.session.todo, ¬ a.Engages

/-- How far a client has come. -/
def Gate (c : Course) : Prop := c.Waiting ∨ (∃ v k, c.Accepting v k) ∨ c.Passed ∨ c.Shut

theorem waiting_start (config : GatewayConfig) (t : Converters) (id : SessionId) (now : Nat) :
    (start config t id now).Waiting where
  stage := rfl
  promising := promising_nil id
  bound := rfl
  latency := rfl
  courtesy := rfl
  quiet := by simp [start, Session.start, Act.Engages, Act.kind]

theorem reads_did (n : Notes) (lane : Lane) (a : Act) (r : Except GatewayError Unit) :
    reads (n ++ [.did lane a r]) = reads n := by
  rw [reads_append]
  exact List.append_nil _

/-- What is told now was the first of what was to be told. -/
theorem told_did {s : Session} {a : Act} {rest : List Act} (ht : s.todo = a :: rest) (n : Notes) :
    told (n ++ [.did .main a (.ok ())]) ++ rest.filterMap Act.told? = told n ++ s.replies := by
  rw [told_append, List.append_assoc, Session.replies, ht]
  cases a <;> rfl

namespace Waiting

variable {c : Course}

theorem ready (h : c.Waiting) (ht : c.session.todo = []) : c.session.Ready (reads c.notes) where
  stage := h.stage
  todo := ht
  promising := h.promising
  lifecycle := by
    rw [← h.bound]
    simp [Session.bound, ht]

/-- What a packet of the client does, whatever it is. -/
theorem heard (h : c.Waiting) (ht : c.session.todo = []) (p : Client.Packet) (s t : Session) :
    Gate ⟨c.session.onHandshake p, c.notes ++ [.heard (.client (.ok p))] ++ s.shown t⟩ := by
  have hready := h.ready ht
  have hthreshold : (c.session.onHandshake p).threshold = c.session.threshold :=
    congrArg Session.Fixture.threshold (c.session.fixture_onHandshake p)
  have hreplies : c.session.replies = [] := by simp [Session.replies, ht]
  have hlatency := h.latency
  have hcourtesy := h.courtesy
  have hquiet := h.quiet
  rw [hreplies, List.append_nil] at hlatency hcourtesy
  rw [ht, List.append_nil] at hquiet
  have hreads : reads (c.notes ++ [.heard (.client (.ok p))] ++ s.shown t) = reads c.notes ++ [p] := by
    rw [reads_append, reads_append, Session.reads_shown, List.append_nil]
    rfl
  have htold : told (c.notes ++ [.heard (.client (.ok p))] ++ s.shown t) = told c.notes := by
    rw [told_append, told_append, Session.told_shown, List.append_nil]
    exact List.append_nil _
  have hacts : acts (c.notes ++ [.heard (.client (.ok p))] ++ s.shown t) = acts c.notes := by simp
  rcases hready.onHandshake p with hh | ⟨v, k, hadm, hecho, hgreet, heq⟩ | hr
  · refine .inl ⟨hh.stage, ?_, hh.bound, ?_, ?_, ?_⟩
    · rw [hreads]
      exact hh.promising
    · rw [hreads, htold, latency_append, hlatency, hh.latency, echoes_append]
    · rw [htold, courtesy_append, hcourtesy, ← hh.courtesy, hthreshold]
    · rw [hacts]
      intro a ha
      rcases List.mem_append.mp ha with ha | ha
      · exact hquiet a ha
      · exact hh.quiet a ha
  · refine .inr (.inl ⟨v, k, ?_, ⟨?_, ?_, ?_, ?_⟩, .inl ⟨[.tell (.resourcePackStack false [] v.name)],
      by simp [Act.kind], ?_⟩⟩)
    · simp only [heq]
      exact h.stage
    · rw [hreads]
      exact hadm
    · rw [hreads, htold, heq, echoes_append, hecho, latency_append, hlatency]
      rfl
    · rw [htold, heq, courtesy_append, hcourtesy, hgreet]
      rfl
    · rw [hacts]
      exact hquiet
    · rw [heq]
      rfl
  · refine .inr (.inr (.inr ⟨hr.stage, ?_, ?_, ?_, ?_⟩))
    · rw [hreads]
      exact hr.doomed
    · rw [hreads]
      intro qs v k hqs hadm
      rcases List.prefix_concat_iff.mp hqs with rfl | hqs
      · exact hr.doomed _ v k (List.prefix_refl _) hadm
      · exact h.promising.not_admissible hqs v k hadm
    · rw [hreads, htold, latency_append, hlatency, hr.latency, echoes_append]
    · rw [hacts]
      intro a ha
      rcases List.mem_append.mp ha with ha | ha
      · exact hquiet a ha
      · exact hr.quiet a ha

/-- What has been done brings the session on. -/
theorem did (h : c.Waiting) (hu : c.session.UnderWay) {a : Act} {rest : List Act}
    (ht : c.session.todo = a :: rest) (now : Nat) (s t : Session) :
    Waiting ⟨c.session.onDone now, c.notes ++ [.did .main a (.ok ())] ++ s.shown t⟩ := by
  have hquiet := h.quiet
  rw [ht] at hquiet
  have hreads : reads (c.notes ++ [.did .main a (.ok ())] ++ s.shown t) = reads c.notes := by
    rw [reads_append, Session.reads_shown, List.append_nil, reads_did]
  have htold : told (c.notes ++ [.did .main a (.ok ())] ++ s.shown t) ++ rest.filterMap Act.told? =
      told c.notes ++ c.session.replies := by
    rw [told_append, Session.told_shown, List.append_nil, told_did ht]
  rw [Session.onDone_handshake h.stage ht (hquiet a (by simp))]
  refine ⟨h.stage, ?_, ?_, ?_, ?_, ?_⟩
  · rw [hreads]
    exact h.promising
  · exact (Session.bound_done hu ht).trans h.bound
  · rw [hreads]
    exact (congrArg EditionGateway.latency htold).trans h.latency
  · exact (congrArg EditionGateway.courtesy htold).trans h.courtesy
  · simpa using hquiet

end Waiting

/-- What is told on the way to the backend is part of what is to be told. -/
theorem Convinced.keep {c d : Course} {n m : Notes} {v : Client.Version} {k : Credentials}
    (h : c.Convinced n v k) (hr : reads m = reads n)
    (ht : told m ++ d.session.replies = told n ++ c.session.replies)
    (hthreshold : d.session.threshold = c.session.threshold) (hq : ∀ a ∈ acts m, ¬ a.Engages) :
    d.Convinced m v k where
  admissible := by
    rw [hr]
    exact h.admissible
  latency := by
    rw [hr, ht]
    exact h.latency
  courtesy := by
    rw [ht, hthreshold]
    exact h.courtesy
  quiet := hq

theorem quiet_did {n : Notes} (h : ∀ a ∈ acts n, ¬ a.Engages) {a : Act} (ha : ¬ a.Engages)
    (lane : Lane) (r : Except GatewayError Unit) :
    ∀ b ∈ acts (n ++ [.did lane a r]), ¬ b.Engages := by
  intro b hb
  rw [acts_append] at hb
  rcases List.mem_append.mp hb with hb | hb
  · exact h b hb
  · rw [List.mem_singleton.mp hb]
    exact ha

/-- The session tells the client to go on, shows that it connects, and connects. -/
theorem Accepting.did {c : Course} {v : Client.Version} {k : Credentials} (h : c.Accepting v k)
    (hu : c.session.UnderWay) {a : Act} {rest : List Act} (ht : c.session.todo = a :: rest)
    (now : Nat) : Gate ⟨c.session.onDone now,
      c.notes ++ [.did .main a (.ok ())] ++ c.session.shown (c.session.onDone now)⟩ := by
  rcases h.todo with ⟨as, has, hsplit⟩ | ⟨n, hn, htodo⟩
  · rw [ht] at hsplit
    cases as with
    | cons b as =>
      obtain ⟨rfl, rfl⟩ := List.cons.inj hsplit
      have hk := has a List.mem_cons_self
      have hquiet : ¬ a.Engages := by simp [Act.Engages, hk]
      have hentered : a.entered? = none := by
        cases a <;> first | rfl | cases hk
      have hdone := Session.onDone_handshake h.stage ht hquiet now
      rw [hentered, Option.elim_none] at hdone
      rw [hdone, Session.shown, if_pos rfl, List.append_nil]
      refine .inr (.inl ⟨v, k, h.stage, h.convinced.keep ?_ ?_ rfl ?_, .inl ⟨as, ?_, rfl⟩⟩)
      · exact reads_did ..
      · exact told_did ht _
      · exact quiet_did h.convinced.quiet hquiet .main _
      · exact fun b hb => has b (List.mem_cons_of_mem a hb)
    | nil =>
      obtain ⟨rfl, rfl⟩ := List.cons.inj hsplit
      have hquiet : ¬ (Act.enter .linkingBackend).Engages := by simp [Act.Engages, Act.kind]
      obtain ⟨hmove, hlt⟩ := (hu.head ht).2.1 _ rfl
      have hdone := Session.onDone_handshake h.stage ht hquiet now
      simp only [Act.entered?, Option.elim_some, hmove] at hdone
      rw [hdone, Session.shown, if_neg (Lifecycle.ne_of_lt hlt).symm]
      refine .inr (.inl ⟨v, k, h.stage, h.convinced.keep ?_ ?_ rfl ?_, .inr ⟨_, rfl, rfl⟩⟩)
      · rw [reads_append, reads_did]
        exact List.append_nil _
      · rw [told_append, List.append_assoc]
        exact told_did ht _
      · rw [acts_append]
        simpa using quiet_did h.convinced.quiet hquiet .main (.ok ())
  · rw [htodo] at ht
    obtain ⟨rfl, rfl⟩ := List.cons.inj ht
    rw [Session.onDone_connect htodo, Session.shown, if_pos rfl, List.append_nil]
    have hconvinced : c.Convinced n v k := h.convinced.keep (by simp [hn, reads])
      (by simp [hn, told]) rfl (by simpa [hn] using h.convinced.quiet)
    have hlatency := hconvinced.latency
    have hcourtesy := hconvinced.courtesy
    have hreplies : c.session.replies = [] := by
      rw [Session.replies, htodo]
      rfl
    rw [hreplies, List.append_nil] at hlatency hcourtesy
    refine .inr (.inr (.inl ⟨.inl rfl, n, [], v, k, ?_, hconvinced.admissible, hlatency,
      hcourtesy, hconvinced.quiet, by simp⟩))
    rw [hn, List.append_assoc]
    rfl

/-- Nobody is let in after the one client. -/
theorem Passed.next {c : Course} (h : c.Passed) {e : Event} (ha : c.session.admits e) (now : Nat) :
    Passed ⟨c.session.handle now e,
      c.notes ++ c.session.noted e ++ c.session.shown (c.session.handle now e)⟩ := by
  obtain ⟨hpast, hconnects⟩ := Session.proceeds_handle h.past now e
  obtain ⟨before, after, v, k, hn, hadm, hlatency, hcourtesy, hquiet, hlater⟩ := h.split
  refine ⟨hpast, before, after ++ c.session.noted e ++ c.session.shown (c.session.handle now e), v, k,
    ?_, hadm, hlatency, ?_, hquiet, ?_⟩
  · simp [hn]
  · rw [(Session.config_handle ha now).1]
    exact hcourtesy
  · have htodo : ∀ a ∈ c.session.todo, a.kind ≠ .connect :=
      fun a ha => hlater a (List.mem_append_right _ ha)
    intro a ha hk
    simp only [acts_append, Session.acts_shown, List.append_nil, List.mem_append] at ha
    rcases ha with (ha | ha) | ha
    · exact hlater a (List.mem_append_left _ ha) hk
    · rcases Session.acts_noted ha with ha | ha | ha
      · exact htodo a ha hk
      · rw [hk] at ha
        cases ha
      · rw [hk] at ha
        cases ha
    · exact htodo a (hconnects a ha hk) hk

/-- What is done for a session that does not let its client in does not let it in either. -/
theorem Shut.did {c : Course} (h : c.Shut) {a : Act} {rest : List Act}
    (ht : c.session.todo = a :: rest) (now : Nat) (s t : Session) :
    Shut ⟨c.session.onDone now, c.notes ++ [.did .main a (.ok ())] ++ s.shown t⟩ := by
  have hquiet := h.quiet
  rw [ht] at hquiet
  have hacts : ∀ b ∈ acts (c.notes ++ [.did .main a (.ok ())] ++ s.shown t), ¬ b.Engages := by
    intro b hb
    apply hquiet
    simp only [acts_append, Session.acts_shown, List.append_nil, List.mem_append] at hb ⊢
    rcases hb with hb | hb
    · exact .inl hb
    · exact .inr (List.mem_singleton.mp hb ▸ List.mem_cons_self)
  have hreads : reads (c.notes ++ [.did .main a (.ok ())] ++ s.shown t) = reads c.notes := by
    rw [reads_append, Session.reads_shown, List.append_nil, reads_did]
  have htold : told (c.notes ++ [.did .main a (.ok ())] ++ s.shown t) ++ rest.filterMap Act.told? =
      told c.notes ++ c.session.replies := by
    rw [told_append, Session.told_shown, List.append_nil, told_did ht]
  have hdoomed := h.doomed
  have hrefused := h.refused
  have hlatency := h.latency
  rw [← hreads] at hdoomed hrefused hlatency
  rw [← htold] at hlatency
  have hrest : ∀ b ∈ acts (c.notes ++ [.did .main a (.ok ())] ++ s.shown t) ++ rest, ¬ b.Engages := by
    intro b hb
    rcases List.mem_append.mp hb with hb | hb
    · exact hacts b hb
    · exact hquiet b (List.mem_append_right _ (List.mem_cons_of_mem a hb))
  rw [Session.onDone_quiet ht (hquiet a (by simp))]
  unfold Session.settle
  split
  · next e hs htodo =>
    dsimp only at htodo
    rw [htodo, List.filterMap_nil, List.append_nil] at hlatency
    refine ⟨⟨e, .inr rfl⟩, hdoomed, hrefused, ?_, fun b hb => ?_⟩
    · rw [latency_append, hlatency]
      exact (congrArg _ (Session.latency_teardown _ e)).trans (List.append_nil _)
    rcases List.mem_append.mp hb with hb | hb
    · exact hacts b hb
    · exact Session.quiet_teardown _ _ b hb
  · next hs htodo =>
    obtain ⟨e, he⟩ := h.stage
    dsimp only at hs
    rw [hs] at he
    simp at he
  · exact ⟨h.stage, hdoomed, hrefused, hlatency, hrest⟩

/-- Every event that is no accident keeps a session at the gate or brings it on. -/
theorem Gate.next {t : Converters} {c : Course} (h : c.Gate) (ho : Orderly t c) {e : Event}
    (ha : c.session.admits e) (hc : e.IsCalm) (now : Nat) :
    Gate ⟨c.session.handle now e,
      c.notes ++ c.session.noted e ++ c.session.shown (c.session.handle now e)⟩ := by
  rcases h with hw | ⟨v, k, hacc⟩ | hp | hs
  · have hu := ho.underWay (by simp [hw.stage])
    rcases Session.calm_cases hu (.inl hw.stage) ha hc with ⟨p, rfl, ht, hs⟩ | ⟨a, rest, rfl, ht⟩
    · simp only [Session.handle, hs]
      exact hw.heard ht p _ _
    · rw [Session.noted_main ht]
      exact .inl (hw.did hu ht now _ _)
  · have hu := ho.underWay (by simp [hacc.stage])
    rcases Session.calm_cases hu (.inl hacc.stage) ha hc with ⟨p, rfl, ht, hs⟩ | ⟨a, rest, rfl, ht⟩
    · rcases hacc.todo with ⟨as, -, hsplit⟩ | ⟨n, -, hsplit⟩ <;> simp [ht] at hsplit
    · rw [Session.noted_main ht]
      exact hacc.did hu ht now
  · exact .inr (.inr (.inl (hp.next ha now)))
  · -- The client is still to be told, or the teardown is under way.
    have hcases : ∃ a rest, e = .done .main (.ok ()) ∧ c.session.todo = a :: rest := by
      obtain ⟨err, herr | herr⟩ := hs.stage
      · have hu := ho.underWay (by simp [herr])
        rcases Session.calm_cases hu (.inr ⟨err, herr⟩) ha hc with ⟨p, -, -, hs'⟩ | hcases
        · rw [herr] at hs'
          cases hs'
        · exact hcases
      · obtain ⟨a, r, rest, rfl, ht, -⟩ := (ho.closing herr).ending.admits ha
        cases r with
        | error e => exact hc.elim
        | ok u => exact ⟨a, rest, rfl, ht⟩
    obtain ⟨a, rest, rfl, ht⟩ := hcases
    rw [Session.noted_main ht]
    exact .inr (.inr (.inr (hs.did ht now _ _)))

theorem gate_after (config : GatewayConfig) (mappings : Mappings) (id : SessionId) (now : Nat)
    (es : List (Nat × Event)) (calm : ∀ o ∈ es, o.2.IsCalm) :
    let c := (start config (.standard mappings) id now).after es
    c.Gate ∧ c.session.threshold = config.listener.compressionThreshold := by
  let P (c : Course) : Prop := c.Gate ∧ c.session.threshold = config.listener.compressionThreshold
  have hstart : P (start config (.standard mappings) id now) :=
    ⟨.inl (waiting_start config _ id now), rfl⟩
  refine (orderly_start config _ id now).induction_on (P := P) (Q := Event.IsCalm)
    (Converters.standard_discreet mappings) hstart ?_ es calm
  rintro c now e ho ⟨hg, hthreshold⟩ ha hc
  exact ⟨hg.next ho ha hc now, (Session.config_handle ha now).1.trans hthreshold⟩

/-- All packets of a client have come to a session, which has read them until it ended, if it did,
and has nothing to do. -/
structure Fed (c : Course) (ps : List Client.Packet) : Prop where
  read : reads c.notes <+: ps
  rest : reads c.notes = ps ∨ ∃ e, c.session.stage = .ending e
  idle : c.session.todo = []

end Course

namespace Notes

/-- A session goes on from its handshake to connect to the backend with these credentials, after
these notes. -/
def Connects (n before : Notes) (k : Credentials) : Prop :=
  ∃ after, n = before ++ .became .linkingBackend :: .did .main (.connect k) (.ok ()) :: after

theorem Connects.mem {n before : Notes} {k : Credentials} (h : Connects n before k) :
    Act.connect k ∈ acts n := by
  obtain ⟨after, rfl⟩ := h
  simp

/-- A session connects only once. -/
theorem connects_unique {before after n : Notes} {k l : Credentials}
    (hb : ∀ a ∈ acts before, ¬ a.Engages) (ha : ∀ a ∈ acts after, a.kind ≠ .connect)
    (h : Connects (before ++ .became .linkingBackend :: .did .main (.connect k) (.ok ()) :: after) n l) :
    n = before ∧ l = k := by
  obtain ⟨rest, hr⟩ := h
  have hsplit : (before ++ [.became .linkingBackend]) ++ .did .main (.connect k) (.ok ()) :: after =
      (n ++ [.became .linkingBackend]) ++ .did .main (.connect l) (.ok ()) :: rest := by
    simpa using hr
  -- One of the two beginnings is part of the other; if they differ, something connects before or after.
  rcases List.append_eq_append_iff.mp hsplit with ⟨m, hm, hrest⟩ | ⟨m, hm, hrest⟩
  · cases m with
    | nil =>
      obtain ⟨hx, -⟩ := List.cons.inj hrest
      rw [List.append_nil] at hm
      exact ⟨(List.append_inj' hm rfl).1, (Act.connect.inj (Note.did.inj hx).2.1).symm⟩
    | cons x m =>
      obtain ⟨-, hafter⟩ := List.cons.inj hrest
      refine absurd rfl (ha (.connect l) ?_)
      rw [hafter]
      simp
  · cases m with
    | nil =>
      obtain ⟨hx, -⟩ := List.cons.inj hrest
      rw [List.append_nil] at hm
      exact ⟨(List.append_inj' hm rfl).1.symm, Act.connect.inj (Note.did.inj hx).2.1⟩
    | cons x m =>
      obtain ⟨rfl, -⟩ := List.cons.inj hrest
      have hmem : Act.connect l ∈ acts (before ++ [.became .linkingBackend]) := by
        rw [hm]
        simp
      refine absurd (.inl rfl) (hb (.connect l) ?_)
      simpa using hmem

end Notes

namespace Course

/-- What the notes about a session say when these packets have come from its client. -/
structure Decides (n : Notes) (ps : List Client.Packet) (threshold : UInt16) : Prop where
  /-- It connects with the packet with which the packets become admissible. -/
  connects_iff : ∀ i k, (∃ before, Connects n before k ∧ (reads before).length = i) ↔
    i ≤ ps.length ∧ ∃ v, Admissible (ps.take i) v k
  /-- Without such a packet it neither connects nor registers, and has answered all probes. -/
  otherwise : (∀ i v k, i ≤ ps.length → ¬ Admissible (ps.take i) v k) →
    count n .connect = 0 ∧ count n .register = 0 ∧ latency (told n) = echoes (reads n)
  /-- When it connects it has told the client four things, and has answered all probes. -/
  welcomed : ∀ before k, Connects n before k → ∃ v, Admissible (reads before) v k ∧
    courtesy (told before) = welcome threshold v ∧ latency (told before) = echoes (reads before)

/-- As long as nothing is done about the backend, nobody is let in. -/
theorem decides_of_quiet {n : Notes} {ps : List Client.Packet} {threshold : UInt16}
    (hq : ∀ a ∈ acts n, ¬ a.Engages) (hno : ∀ i v k, ¬ Admissible (ps.take i) v k)
    (hlatency : latency (told n) = echoes (reads n)) : Decides n ps threshold := by
  have hconnects {before : Notes} {k : Credentials} : ¬ Connects n before k :=
    fun h => hq _ h.mem (.inl rfl)
  have hcount (kind : Act.Kind) (hk : kind = .connect ∨ kind = .register) : count n kind = 0 := by
    refine List.countP_eq_zero.mpr fun a ha hak => hq a ha ?_
    obtain rfl := of_decide_eq_true hak
    exact hk
  refine ⟨fun i k => ⟨?_, ?_⟩, fun _ => ⟨hcount _ (.inl rfl), hcount _ (.inr rfl), hlatency⟩, ?_⟩
  · rintro ⟨before, h, -⟩
    exact absurd h hconnects
  · rintro ⟨-, v, h⟩
    exact absurd h (hno i v k)
  · intro before k h
    exact absurd h hconnects

/-- When the client has been let in, it was with the only packet with which it could be. -/
theorem Passed.decides {c : Course} (h : c.Passed) {ps : List Client.Packet}
    (read : reads c.notes <+: ps) : Decides c.notes ps c.session.threshold := by
  obtain ⟨before, after, v, k, hn, hadm, hlatency, hcourtesy, hquiet, hlater⟩ := h.split
  have hunique {n : Notes} {l : Credentials} (h : Connects c.notes n l) : n = before ∧ l = k :=
    connects_unique hquiet (fun a ha => hlater a (List.mem_append_left _ ha)) (hn ▸ h)
  have hbefore : reads before <+: ps := by
    refine List.IsPrefix.trans ?_ read
    rw [hn, reads_append]
    exact List.prefix_append _ _
  have htake : ps.take (reads before).length = reads before :=
    (List.prefix_iff_eq_take.mp hbefore).symm
  refine ⟨fun i l => ⟨?_, ?_⟩, ?_, ?_⟩
  · rintro ⟨m, h, rfl⟩
    obtain ⟨rfl, rfl⟩ := hunique h
    rw [htake]
    exact ⟨hbefore.length_le, v, hadm⟩
  · rintro ⟨hle, w, h⟩
    -- Of two admissible beginnings of one list neither is shorter.
    have heq : ps.take i = reads before := by
      rcases List.prefix_or_prefix_of_prefix (List.take_prefix i ps) hbefore with hpre | hpre
      · exact h.eq_of_prefix hadm hpre
      · exact (hadm.eq_of_prefix h hpre).symm
    have hlen : (reads before).length = i := by
      rw [← heq, List.length_take, Nat.min_eq_left hle]
    rw [heq] at h
    rw [(h.eq hadm).2]
    exact ⟨before, ⟨after, hn⟩, hlen⟩
  · intro hno
    apply absurd hadm
    rw [← htake]
    exact hno _ v k hbefore.length_le
  · intro n l h
    obtain ⟨rfl, rfl⟩ := hunique h
    exact ⟨v, hadm, hcourtesy, hlatency⟩

/-- A session connects to the backend just when the packets of its client become admissible, with the
credentials that are among them. -/
theorem login_gate (config : GatewayConfig) (mappings : Mappings) (id : SessionId) (now : Nat)
    (es : List (Nat × Event)) (calm : ∀ o ∈ es, o.2.IsCalm) (ps : List Client.Packet)
    (fed : ((start config (.standard mappings) id now).after es).Fed ps) :
    Decides ((start config (.standard mappings) id now).after es).notes ps
      config.listener.compressionThreshold := by
  obtain ⟨hgate, hthreshold⟩ := gate_after config mappings id now es calm
  rw [← hthreshold]
  generalize (start config (.standard mappings) id now).after es = c at hgate fed ⊢
  have hreplies : c.session.replies = [] := by simp [Session.replies, fed.idle]
  rcases hgate with hw | ⟨v, k, hacc⟩ | hp | hs
  · -- Nothing has been decided, so no beginning of the packets is admissible.
    have hread : reads c.notes = ps := by
      apply fed.rest.resolve_right
      rintro ⟨e, he⟩
      rw [hw.stage] at he
      cases he
    have hlatency := hw.latency
    rw [hreplies, List.append_nil] at hlatency
    refine decides_of_quiet (fun a ha => hw.quiet a (List.mem_append_left _ ha)) (fun i v k => ?_)
      hlatency
    exact hw.promising.not_admissible (hread ▸ List.take_prefix i ps) v k
  · rcases hacc.todo with ⟨as, -, hsplit⟩ | ⟨n, -, hsplit⟩ <;> simp [fed.idle] at hsplit
  · exact hp.decides fed.read
  · have hlatency := hs.latency
    rw [hreplies, List.append_nil] at hlatency
    refine decides_of_quiet (fun a ha => hs.quiet a (List.mem_append_left _ ha))
      (fun i v k hadm => ?_) hlatency
    -- The packets that were not read any more would not have helped.
    rcases List.prefix_or_prefix_of_prefix (List.take_prefix i ps) fed.read with hpre | hpre
    · exact hs.refused _ v k hpre hadm
    · exact hs.doomed _ v k hpre hadm

/-- The gate opens for a client that says what it is before it says who it is, and does not open for its
first answer about the packs. -/
theorem login_gate_opens :
    let ps : List Client.Packet := [.requestNetworkSettings 748, .resourcePackClientResponse .completed,
      .clientData "\x7b\x7d", .networkStackLatency 5 true, .login 748 "Steve" ⟨0, 0⟩ "" "",
      .requestNetworkSettings 500, .resourcePackClientResponse .completed]
    let es : List Event := [.done .main (.ok ()), .client (.ok (.requestNetworkSettings 748)),
      .done .main (.ok ()), .done .main (.ok ()),
      .client (.ok (.resourcePackClientResponse .completed)), .client (.ok (.clientData "\x7b\x7d")),
      .client (.ok (.networkStackLatency 5 true)), .done .main (.ok ()),
      .client (.ok (.login 748 "Steve" ⟨0, 0⟩ "" "")), .done .main (.ok ()), .done .main (.ok ()),
      .done .main (.ok ()), .client (.ok (.requestNetworkSettings 500)),
      .client (.ok (.resourcePackClientResponse .completed)), .done .main (.ok ()),
      .done .main (.ok ()), .done .main (.ok ())]
    let c := (start {} (.standard {}) ⟨1⟩ 0).after (es.map (0, ·))
    (∀ o ∈ es.map ((0 : Nat), ·), o.2.IsCalm) ∧ c.Fed ps ∧ c.session.stage = .linking ∧
      Decides c.notes ps 256 := by
  intro ps es c
  have calm : ∀ o ∈ es.map ((0 : Nat), ·), o.2.IsCalm := by simp [es, Event.IsCalm]
  have fed : c.Fed ps := ⟨⟨[], rfl⟩, .inl rfl, rfl⟩
  exact ⟨calm, fed, rfl, login_gate {} {} ⟨1⟩ 0 _ calm ps fed⟩

end Course
end EditionGateway
