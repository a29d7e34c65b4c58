import EditionGateway.Gateway.Session

/-!
Which clients are let in, by the packets that they send: those that ask for a supported version first,
say once who they are and once what they are, and then accept the resource packs.
-/

namespace EditionGateway

/-- Something holds of each element of a list and those before it. -/
def Each {α : Type} (R : List α → α → Prop) (l : List α) : Prop :=
  ∀ before x after, l = before ++ x :: after → R before x

namespace Each

variable {α : Type} {R : List α → α → Prop} {l : List α}

theorem nil : Each R [] := by
  intro before x after h
  simp at h

theorem concat {x : α} (h : Each R l) (hx : R l x) : Each R (l ++ [x]) := by
  intro before y after he
  -- The element is `x`, or it is one of `l` and the split is one of `l`.
  rcases List.append_eq_append_iff.mp he with ⟨m, rfl, hm⟩ | ⟨m, rfl, hm⟩
  · cases m with
    | nil =>
      obtain ⟨rfl, -⟩ := List.cons.inj (by simpa using hm)
      simpa using hx
    | cons z m => simp at hm
  · cases m with
    | nil =>
      obtain ⟨rfl, -⟩ := List.cons.inj (by simpa using hm.symm)
      simpa using hx
    | cons z m =>
      obtain ⟨rfl, -⟩ := List.cons.inj hm
      exact h before _ m rfl

end Each

namespace Client.Packet

/-- There is a packet of this kind. -/
def Has (k : Kind) (ps : List Packet) : Prop := ∃ p ∈ ps, p.kind = k

theorem Has.append {k : Kind} {ps : List Packet} (h : Has k ps) (qs : List Packet) :
    Has k (ps ++ qs) := by
  obtain ⟨p, hp, hk⟩ := h
  exact ⟨p, List.mem_append_left qs hp, hk⟩

theorem has_of_filter {k : Kind} {ps : List Packet} {p : Packet} {qs : List Packet}
    (h : ps.filter (·.kind = k) = p :: qs) : Has k ps := by
  have hp : p ∈ ps.filter (·.kind = k) := by rw [h]; exact List.mem_cons_self
  obtain ⟨hp, hk⟩ := List.mem_filter.mp hp
  exact ⟨p, hp, of_decide_eq_true hk⟩

/-- If just one packet passes, none before it does. -/
theorem filter_split {f : Packet → Bool} {ps t : List Packet} {p q : Packet}
    (h : (ps ++ ([p] ++ t)).filter f = [q]) (hp : f p = true) : ps.filter f = [] ∧ p = q := by
  rw [List.filter_append, List.singleton_append, List.filter_cons_of_pos hp] at h
  cases hf : ps.filter f with
  | nil =>
    rw [hf] at h
    exact ⟨rfl, (List.cons.inj h).1⟩
  | cons x xs =>
    rw [hf] at h
    simp at h

/-- Nobody says who or what he is without having asked for the settings before. -/
def Ordered (ps : List Packet) : Prop :=
  Each (fun before p => p.kind = .login ∨ p.kind = .clientData → Has .requestNetworkSettings before) ps

/-- The packs have not been answered for since it was known who and what the client is. -/
def Unanswered (ps : List Packet) : Prop :=
  Each (fun before p => p.kind = .resourcePackClientResponse →
    ¬ (Has .login before ∧ Has .clientData before)) ps

end Client.Packet

open Client.Packet

/-- The login with these credentials. -/
def Credentials.login (c : Credentials) (v : Client.Version) : Client.Packet :=
  .login v.protocol c.username c.uuid c.xuid c.token

/-- With the last of these packets a client is let in, with this version and these credentials. -/
structure Admissible (ps : List Client.Packet) (v : Client.Version) (c : Credentials) : Prop where
  stays : ¬ Has .disconnect ps
  ordered : Ordered ps
  version : ∃ n, ps.find? (·.kind = .requestNetworkSettings) = some (.requestNetworkSettings n) ∧
    Client.Version.select? n = some v
  login : ps.filter (·.kind = .login) = [c.login v] ∧ c.validate = .ok ()
  clientData : ∃ payload d, ps.filter (·.kind = .clientData) = [.clientData payload] ∧
    ClientData.parse payload = .ok d
  answer : ∃ qs status, ps = qs ++ [.resourcePackClientResponse status] ∧ status ≠ .failed ∧
    Unanswered qs

namespace Admissible

variable {ps qs : List Client.Packet} {v w : Client.Version} {c d : Credentials}

/-- The answer for the packs comes when it is known who and what the client is. -/
theorem answered (h : Admissible ps v c) : ∃ qs status,
    ps = qs ++ [.resourcePackClientResponse status] ∧ status ≠ .failed ∧ Has .login qs ∧
      Has .clientData qs ∧ Unanswered qs := by
  obtain ⟨qs, status, rfl, hs, hu⟩ := h.answer
  obtain ⟨payload, d, hd, -⟩ := h.clientData
  refine ⟨qs, status, rfl, hs, ?_, ?_, hu⟩
  · obtain ⟨p, hp, hk⟩ := has_of_filter h.login.1
    rcases List.mem_append.mp hp with hp | hp
    · exact ⟨p, hp, hk⟩
    · rw [List.mem_singleton.mp hp] at hk
      cases hk
  · obtain ⟨p, hp, hk⟩ := has_of_filter hd
    rcases List.mem_append.mp hp with hp | hp
    · exact ⟨p, hp, hk⟩
    · rw [List.mem_singleton.mp hp] at hk
      cases hk

/-- A client is let in only once. -/
theorem eq_of_prefix (h : Admissible ps v c) (k : Admissible qs w d) (hp : ps <+: qs) : ps = qs := by
  obtain ⟨as, r, rfl, -, hl, hd, -⟩ := h.answered
  obtain ⟨bs, s, rfl, -, hu⟩ := k.answer
  obtain ⟨t, ht⟩ := hp
  rcases List.eq_nil_or_concat t with rfl | ⟨t, x, rfl⟩
  · rwa [List.append_nil] at ht
  · -- Then the first answer would already be among those that do not count.
    have hbs : bs = as ++ .resourcePackClientResponse r :: t := by
      rw [List.concat_eq_append, ← List.append_assoc] at ht
      rw [← (List.append_inj' ht rfl).1, List.append_assoc]
      rfl
    exact absurd ⟨hl, hd⟩ (hu as _ t hbs rfl)

theorem eq (h : Admissible ps v c) (k : Admissible ps w d) : v = w ∧ c = d := by
  obtain ⟨n, hn, hv⟩ := h.version
  obtain ⟨m, hm, hw⟩ := k.version
  obtain rfl := Client.Packet.requestNetworkSettings.inj (Option.some.inj (hn.symm.trans hm))
  have hl := (List.cons.inj (h.login.1.symm.trans k.login.1)).1
  obtain ⟨-, hname, huuid, hxuid, htoken⟩ := Client.Packet.login.inj hl
  refine ⟨Option.some.inj (hv.symm.trans hw), ?_⟩
  cases c
  cases d
  simp_all

end Admissible

/-- Whatever else a client sends, it is not let in. -/
def Doomed (ps : List Client.Packet) : Prop :=
  ∀ qs v c, ps <+: qs → ¬ Admissible qs v c

/-- What a session knows when a client may still be let in. -/
structure Promising (ps : List Client.Packet) (ctx : SessionContext) : Prop where
  stays : ¬ Has .disconnect ps
  ordered : Ordered ps
  unanswered : Unanswered ps
  version : ctx.version = none ∧ ¬ Has .requestNetworkSettings ps ∨ ∃ n v, ctx.version = some v ∧
    ps.find? (·.kind = .requestNetworkSettings) = some (.requestNetworkSettings n) ∧
    Client.Version.select? n = some v
  login : ctx.auth = none ∧ ps.filter (·.kind = .login) = [] ∨ ∃ v c, ctx.version = some v ∧
    ctx.auth = some c ∧ ps.filter (·.kind = .login) = [c.login v] ∧ c.validate = .ok ()
  clientData : ctx.clientData = none ∧ ps.filter (·.kind = .clientData) = [] ∨ ∃ payload d,
    ctx.clientData = some d ∧ ps.filter (·.kind = .clientData) = [.clientData payload] ∧
    ClientData.parse payload = .ok d

theorem promising_nil (id : SessionId) : Promising [] { id } where
  stays := by simp [Has]
  ordered := .nil
  unanswered := .nil
  version := .inl ⟨rfl, by simp [Has]⟩
  login := .inl ⟨rfl, rfl⟩
  clientData := .inl ⟨rfl, rfl⟩

namespace Promising

variable {ps : List Client.Packet} {ctx : SessionContext} {p : Client.Packet}

/-! ### What a packet adds -/

theorem filter_concat_of_ne {k : Client.Kind} (h : p.kind ≠ k) :
    (ps ++ [p]).filter (·.kind = k) = ps.filter (·.kind = k) := by
  simp [List.filter_append, h]

theorem find?_concat_of_ne {k : Client.Kind} (h : p.kind ≠ k) :
    (ps ++ [p]).find? (·.kind = k) = ps.find? (·.kind = k) := by
  simp [List.find?_append, h]

theorem has_concat {k : Client.Kind} : Has k (ps ++ [p]) ↔ Has k ps ∨ p.kind = k := by
  simp [Has, or_and_right, exists_or]

theorem find?_eq_none (h : Promising ps ctx) (hv : ctx.version = none) :
    ps.find? (·.kind = .requestNetworkSettings) = none := by
  rcases h.version with ⟨-, hno⟩ | ⟨n, w, hw, -, -⟩
  · exact List.find?_eq_none.mpr fun q hq hk => hno ⟨q, hq, of_decide_eq_true hk⟩
  · rw [hv] at hw
    cases hw

theorem has_of_version (h : Promising ps ctx) (hv : ctx.version ≠ none) :
    Has .requestNetworkSettings ps := by
  rcases h.version with ⟨hn, -⟩ | ⟨n, v, -, hf, -⟩
  · exact absurd hn hv
  · exact ⟨_, List.mem_of_find?_eq_some hf, by simp [Client.Packet.kind]⟩

theorem authenticated_iff (h : Promising ps ctx) :
    ctx.isAuthenticated = true ↔ Has .login ps ∧ Has .clientData ps := by
  have hl : ctx.auth.isSome = true ↔ Has .login ps := by
    rcases h.login with ⟨hn, hf⟩ | ⟨v, c, -, hs, hf, -⟩
    · simpa [hn, Has] using List.filter_eq_nil_iff.mp hf
    · simpa [hs] using has_of_filter hf
  have hd : ctx.clientData.isSome = true ↔ Has .clientData ps := by
    rcases h.clientData with ⟨hn, hf⟩ | ⟨t, d, hs, hf, -⟩
    · simpa [hn, Has] using List.filter_eq_nil_iff.mp hf
    · simpa [hs] using has_of_filter hf
  rw [SessionContext.isAuthenticated, Bool.and_eq_true, hl, hd]

theorem unauthenticated (h : Promising ps ctx) (hv : ctx.version = none) :
    ctx.isAuthenticated = false := by
  rcases h.login with ⟨hn, -⟩ | ⟨v, c, hs, -⟩
  · simp [SessionContext.isAuthenticated, hn]
  · rw [hv] at hs
    cases hs

/-- A packet that means nothing yet leaves everything as it is. -/
theorem pass (h : Promising ps ctx)
    (hp : p.kind ≠ .disconnect ∧ p.kind ≠ .login ∧ p.kind ≠ .clientData)
    (hr : p.kind = .requestNetworkSettings → ctx.version ≠ none)
    (ha : p.kind = .resourcePackClientResponse → ctx.isAuthenticated = false) :
    Promising (ps ++ [p]) ctx where
  stays := by
    rw [has_concat]
    exact not_or.mpr ⟨h.stays, hp.1⟩
  ordered := h.ordered.concat fun hk => absurd hk (not_or.mpr ⟨hp.2.1, hp.2.2⟩)
  unanswered := h.unanswered.concat fun hk => by
    rw [← h.authenticated_iff, ha hk]
    simp
  version := by
    rcases h.version with ⟨hn, hno⟩ | ⟨n, v, hv, hf, hs⟩
    · refine .inl ⟨hn, ?_⟩
      rw [has_concat]
      exact not_or.mpr ⟨hno, fun hk => hr hk hn⟩
    · refine .inr ⟨n, v, hv, ?_, hs⟩
      rw [List.find?_append, hf]
      rfl
  login := by
    rw [filter_concat_of_ne hp.2.1]
    exact h.login
  clientData := by
    rw [filter_concat_of_ne hp.2.2]
    exact h.clientData

theorem select (h : Promising ps ctx) (hv : ctx.version = none) {n : UInt32} {v : Client.Version}
    (hs : Client.Version.select? n = some v) :
    Promising (ps ++ [.requestNetworkSettings n]) { ctx with version := some v } := by
  refine ⟨?_, h.ordered.concat (by simp [Client.Packet.kind]),
    h.unanswered.concat (by simp [Client.Packet.kind]), ?_, ?_, ?_⟩
  · rw [has_concat]
    exact not_or.mpr ⟨h.stays, by simp [Client.Packet.kind]⟩
  · refine .inr ⟨n, v, rfl, ?_, hs⟩
    rw [List.find?_append, h.find?_eq_none hv]
    rfl
  · rw [filter_concat_of_ne (by simp [Client.Packet.kind])]
    rcases h.login with hl | ⟨w, c, hw, -⟩
    · exact .inl hl
    · rw [hv] at hw
      cases hw
  · rw [filter_concat_of_ne (by simp [Client.Packet.kind])]
    exact h.clientData

theorem logIn (h : Promising ps ctx) {v : Client.Version} {c : Credentials}
    (hv : ctx.version = some v) (ha : ctx.auth = none) (hc : c.validate = .ok ()) :
    Promising (ps ++ [c.login v]) { ctx with auth := some c } := by
  have hhas := h.has_of_version (by simp [hv])
  refine ⟨?_, h.ordered.concat fun _ => hhas,
    h.unanswered.concat (by simp [Credentials.login, Client.Packet.kind]), ?_, ?_, ?_⟩
  · rw [has_concat]
    exact not_or.mpr ⟨h.stays, by simp [Credentials.login, Client.Packet.kind]⟩
  · rw [has_concat, find?_concat_of_ne (by simp [Credentials.login, Client.Packet.kind])]
    rcases h.version with ⟨hn, -⟩ | hver
    · rw [hv] at hn
      cases hn
    · exact .inr hver
  · rcases h.login with ⟨-, hf⟩ | ⟨w, d, -, hs, -⟩
    · refine .inr ⟨v, c, hv, rfl, ?_, hc⟩
      rw [List.filter_append, hf]
      rfl
    · rw [ha] at hs
      cases hs
  · rw [filter_concat_of_ne (by simp [Credentials.login, Client.Packet.kind])]
    exact h.clientData

theorem describe (h : Promising ps ctx) {payload : String} {d : ClientData}
    (hv : ctx.version ≠ none) (ha : ctx.clientData = none) (hd : ClientData.parse payload = .ok d) :
    Promising (ps ++ [.clientData payload]) { ctx with clientData := some d } := by
  have hhas := h.has_of_version hv
  refine ⟨?_, h.ordered.concat fun _ => hhas, h.unanswered.concat (by simp [Client.Packet.kind]),
    ?_, ?_, ?_⟩
  · rw [has_concat]
    exact not_or.mpr ⟨h.stays, by simp [Client.Packet.kind]⟩
  · rw [has_concat, find?_concat_of_ne (by simp [Client.Packet.kind])]
    rcases h.version with ⟨hn, -⟩ | hver
    · exact absurd hn hv
    · exact .inr hver
  · rw [filter_concat_of_ne (by simp [Client.Packet.kind])]
    exact h.login
  · rcases h.clientData with ⟨-, hf⟩ | ⟨t, e, hs, -⟩
    · refine .inr ⟨payload, d, rfl, ?_, hd⟩
      rw [List.filter_append, hf]
      rfl
    · rw [ha] at hs
      cases hs

/-! ### Being let in -/

theorem admitted (h : Promising ps ctx) (ha : ctx.isAuthenticated = true) {r : Client.PackResponse}
    (hr : r ≠ .failed) : ∃ v c, ctx.version = some v ∧ ctx.auth = some c ∧
      Admissible (ps ++ [.resourcePackClientResponse r]) v c := by
  have hboth := h.authenticated_iff.mp ha
  rcases h.login with ⟨-, hf⟩ | ⟨v, c, hv, hauth, hlogin, hvalid⟩
  · obtain ⟨p, hp, hk⟩ := hboth.1
    -- A client that is known has said so.
    exact absurd (decide_eq_true hk) (List.filter_eq_nil_iff.mp hf p hp)
  rcases h.clientData with ⟨-, hf⟩ | ⟨payload, d, -, hdata, hparse⟩
  · obtain ⟨p, hp, hk⟩ := hboth.2
    exact absurd (decide_eq_true hk) (List.filter_eq_nil_iff.mp hf p hp)
  refine ⟨v, c, hv, hauth, ?_, ?_, ?_, ?_, ?_, ps, r, rfl, hr, h.unanswered⟩
  · rw [has_concat]
    exact not_or.mpr ⟨h.stays, by simp [Client.Packet.kind]⟩
  · exact h.ordered.concat (by simp [Client.Packet.kind])
  · rw [find?_concat_of_ne (by simp [Client.Packet.kind])]
    rcases h.version with ⟨hn, -⟩ | ⟨n, w, hw, hf, hs⟩
    · rw [hv] at hn
      cases hn
    · obtain rfl := Option.some.inj (hw.symm.trans hv)
      exact ⟨n, hf, hs⟩
  · rw [filter_concat_of_ne (by simp [Client.Packet.kind])]
    exact ⟨hlogin, hvalid⟩
  · rw [filter_concat_of_ne (by simp [Client.Packet.kind])]
    exact ⟨payload, d, hdata, hparse⟩

/-- A client that may still be let in has not been let in. -/
theorem not_admissible (h : Promising ps ctx) {qs : List Client.Packet} (hq : qs <+: ps)
    (v : Client.Version) (c : Credentials) : ¬ Admissible qs v c := by
  intro k
  obtain ⟨as, r, rfl, -, hl, hd, -⟩ := k.answered
  obtain ⟨t, ht⟩ := hq
  -- The answer with which it was let in would be one that does not count.
  refine h.unanswered as (.resourcePackClientResponse r) t ?_ rfl ⟨hl, hd⟩
  rw [← ht]
  simp

/-! ### Not being let in -/

theorem doomed_of_eq {qs : List Client.Packet}
    (h : ∀ t v c, ¬ Admissible (qs ++ t) v c) : Doomed qs := by
  rintro rs v c ⟨t, rfl⟩
  exact h t v c

theorem doomed_quit (hp : p.kind = .disconnect) : Doomed (ps ++ [p]) :=
  doomed_of_eq fun _ _ _ k => k.stays ((has_concat.mpr (.inr hp)).append _)

theorem doomed_unsupported (h : Promising ps ctx) (hv : ctx.version = none) {n : UInt32}
    (hs : Client.Version.select? n = none) : Doomed (ps ++ [.requestNetworkSettings n]) := by
  apply doomed_of_eq
  intro t w c k
  obtain ⟨m, hm, hw⟩ := k.version
  rw [List.append_assoc, List.find?_append, h.find?_eq_none hv] at hm
  obtain rfl := Client.Packet.requestNetworkSettings.inj (Option.some.inj hm)
  rw [hs] at hw
  cases hw

theorem doomed_unasked (h : Promising ps ctx) (hv : ctx.version = none)
    (hp : p.kind = .login ∨ p.kind = .clientData) : Doomed (ps ++ [p]) := by
  apply doomed_of_eq
  intro t w c k
  obtain ⟨q, hq, hk⟩ := k.ordered ps p t (by simp) hp
  have hnone := List.find?_eq_none.mp (h.find?_eq_none hv) q hq
  exact hnone (decide_eq_true hk)

/-- A login that is not the one of a client that is let in. -/
theorem doomed_login (h : Promising ps ctx) {v : Client.Version} (hv : ctx.version = some v)
    {n : UInt32} {c : Credentials}
    (hbad : n ≠ v.protocol ∨ c.validate ≠ .ok () ∨ ctx.auth ≠ none) :
    Doomed (ps ++ [.login n c.username c.uuid c.xuid c.token]) := by
  apply doomed_of_eq
  intro t w d k
  rw [List.append_assoc] at k
  obtain ⟨hf, hl⟩ := filter_split k.login.1 (by simp [Client.Packet.kind])
  obtain ⟨hn, hname, huuid, hxuid, htoken⟩ := Client.Packet.login.inj hl
  obtain rfl : c = d := by
    cases c
    cases d
    simp_all
  rcases hbad with hbad | hbad | hbad
  · -- The version is that of the first request, so the login is for another one.
    rcases h.version with ⟨hnone, -⟩ | ⟨m, v', hv', hfirst, hs⟩
    · rw [hv] at hnone
      cases hnone
    · obtain rfl := Option.some.inj (hv'.symm.trans hv)
      obtain ⟨m', hm', hw⟩ := k.version
      rw [List.find?_append, hfirst] at hm'
      obtain rfl := Client.Packet.requestNetworkSettings.inj (Option.some.inj hm')
      obtain rfl := Option.some.inj (hs.symm.trans hw)
      exact hbad hn
  · exact hbad k.login.2
  · rcases h.login with ⟨hnone, -⟩ | ⟨v', c', -, -, hf', -⟩
    · exact hbad hnone
    · rw [hf] at hf'
      cases hf'

theorem doomed_clientData (h : Promising ps ctx) {payload : String}
    (hbad : (∀ d, ClientData.parse payload ≠ .ok d) ∨ ctx.clientData ≠ none) :
    Doomed (ps ++ [.clientData payload]) := by
  apply doomed_of_eq
  intro t w c k
  rw [List.append_assoc] at k
  obtain ⟨payload', d, hone, hd⟩ := k.clientData
  obtain ⟨hf, hl⟩ := filter_split hone (by simp [Client.Packet.kind])
  obtain rfl := Client.Packet.clientData.inj hl
  rcases hbad with hbad | hbad
  · exact hbad d hd
  · rcases h.clientData with ⟨hnone, -⟩ | ⟨payload', d', -, hf', -⟩
    · exact hbad hnone
    · rw [hf] at hf'
      cases hf'

theorem doomed_refused (h : Promising ps ctx) (ha : ctx.isAuthenticated = true) :
    Doomed (ps ++ [.resourcePackClientResponse .failed]) := by
  apply doomed_of_eq
  intro t w c k
  obtain ⟨qs, r, hq, hr, hu⟩ := k.answer
  rcases List.eq_nil_or_concat t with rfl | ⟨t, x, rfl⟩
  · rw [List.append_nil] at hq
    have hlast := (List.append_inj' hq rfl).2
    exact hr (Client.Packet.resourcePackClientResponse.inj (List.cons.inj hlast).1).symm
  · rw [List.concat_eq_append, ← List.append_assoc] at hq
    have hqs := (List.append_inj' hq rfl).1
    -- A later answer would not be the first that counts.
    refine hu ps (.resourcePackClientResponse .failed) t ?_ rfl (h.authenticated_iff.mp ha)
    rw [← hqs]
    simp

end Promising
end EditionGateway
