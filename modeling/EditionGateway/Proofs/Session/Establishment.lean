import EditionGateway.Proofs.Session.Teardown

/-!
Until a session is established nothing is converted for it, and the backend hears nothing of it. When it
shows that it is established it is about to be registered.
-/

namespace EditionGateway

open Notes

namespace Session

/-- A session for which nothing has been converted, and which is not about to ask the backend for
anything. -/
structure Reserved (s : Session) : Prop where
  stats : s.stats = {}
  todo : ∀ a ∈ s.todo, a.kind ≠ .ask

namespace Reserved

variable {s : Session}

theorem fail (h : s.Reserved) (e : GatewayError) : (s.fail e).Reserved where
  stats := h.stats
  todo := by
    intro a ha
    rcases mem_teardown ha with rfl | rfl | rfl | rfl | rfl | rfl | rfl <;> simp [Act.kind]

theorem onGated (h : s.Reserved) (p : Client.Packet) : (s.onGated p).Reserved := by
  unfold Session.onGated
  split
  · exact ⟨h.stats, by simp [Act.kind]⟩
  · exact h.fail _
  · exact h

theorem remember (h : s.Reserved) (c : Except SessionError SessionContext) :
    (s.remember c).Reserved := by
  cases c with
  | error e => exact h.fail _
  | ok c =>
    unfold Session.remember Session.offerPacks
    dsimp only
    split
    · exact ⟨h.stats, by simp [Act.kind]⟩
    · exact ⟨h.stats, h.todo⟩

theorem onSettingsRequest (h : s.Reserved) (n : UInt32) : (s.onSettingsRequest n).Reserved := by
  unfold Session.onSettingsRequest
  split
  · exact h
  · exact ⟨h.stats, by simp [Act.kind]⟩
  · exact ⟨h.stats, by simp [Act.kind]⟩

theorem onLogin (h : s.Reserved) (n : UInt32) (c : Credentials) : (s.onLogin n c).Reserved := by
  unfold Session.onLogin
  split
  · exact h.fail _
  · split
    · exact h.fail _
    · exact h.remember _

theorem onClientData (h : s.Reserved) (payload : String) : (s.onClientData payload).Reserved := by
  unfold Session.onClientData
  split
  · exact h.fail _
  · exact h.remember _

theorem onPackResponse (h : s.Reserved) (r : Client.PackResponse) :
    (s.onPackResponse r).Reserved := by
  unfold Session.onPackResponse
  split
  · exact h
  · split
    · exact h.fail _
    · split
      · exact h.fail _
      · exact ⟨h.stats, by simp [Act.kind]⟩

theorem onHandshake (h : s.Reserved) (p : Client.Packet) : (s.onHandshake p).Reserved := by
  unfold Session.onHandshake
  split
  · exact h.onSettingsRequest _
  · exact h.onLogin _ _
  · exact h.onClientData _
  · exact h.onPackResponse _
  · exact h.onGated _

theorem settle (h : s.Reserved) (now : Nat) : (s.settle now).Reserved := by
  unfold Session.settle
  split
  · exact h.fail _
  · unfold Session.awaitClient
    split
    · exact ⟨h.stats, h.todo⟩
    · exact ⟨h.stats, h.todo⟩
  · exact h

theorem onDone (h : s.Reserved) {a : Act} {rest : List Act} (ht : s.todo = a :: rest)
    (ha : a.kind ≠ .register) (now : Nat) : (s.onDone now).Reserved := by
  have hrest : ∀ b ∈ rest, b.kind ≠ .ask := fun b hb => h.todo b (by simp [ht, hb])
  unfold Session.onDone
  rw [ht]
  dsimp only
  split
  · exact settle (s := { s with todo := rest, lifecycle := _ }) ⟨h.stats, hrest⟩ now
  · exact ⟨h.stats, hrest⟩
  · exact absurd rfl ha
  · exact settle (s := { s with todo := rest }) ⟨h.stats, hrest⟩ now

end Reserved

theorem reserved_start (config : GatewayConfig) (t : Converters) (id : SessionId) (now : Nat) :
    (Session.start config t id now).Reserved where
  stats := rfl
  todo := by simp [Session.start, Act.kind]

/-- A session that forwards is registered. -/
theorem UnderWay.not_forwarding {s : Session} (h : s.UnderWay) (hr : s.registered = false) :
    s.stage ≠ .forwarding := by
  obtain ⟨_, _, -, -, ha⟩ := h.agenda
  intro hs
  rw [hs, hr] at ha
  generalize s.lifecycle = life at ha
  generalize s.linked = linked at ha
  cases ha

theorem UnderWay.main_of_unregistered {s : Session} (h : s.UnderWay) (hr : s.registered = false)
    {lane : Lane} {a : Act} (hn : s.next? lane = some a) : lane = .main :=
  Decidable.byContradiction fun hl => h.not_forwarding hr (h.next?_lane hn hl)

/-- Until it registers, a session stays reserved. -/
theorem Reserved.handle {s : Session} (h : s.Reserved) (hu : s.UnderWay) (hr : s.registered = false)
    {e : Event} (ha : s.admits e) (now : Nat) (hnext : (s.handle now e).registered = false) :
    (s.handle now e).Reserved := by
  have hf := hu.not_forwarding hr
  cases e with
  | shutdown => exact h.fail _
  | timeUp => exact h.fail _
  | client r =>
    cases r with
    | error e => exact h.fail e
    | ok p =>
      simp only [Session.handle]
      split
      · exact h.onHandshake p
      · next hs => exact absurd hs hf
      · exact h.onGated p
  | connected r =>
    cases r with
    | error e => exact h.fail _
    | ok u => exact ⟨h.stats, by simp [Session.handle, Act.kind]⟩
  | backend r => exact absurd (admits_backend ha).1 hf
  | command k => exact absurd (admits_command ha).1 hf
  | done lane r =>
    obtain ⟨a, hn, -⟩ := admits_done ha
    obtain rfl := hu.main_of_unregistered hr hn
    obtain ⟨rest, ht⟩ := List.head?_eq_some_iff.mp hn
    cases r with
    | error e =>
      rw [hu.handle_failed]
      exact h.fail e
    | ok u =>
      refine h.onDone ht (fun hk => ?_) now
      have hreg := congrArg Fixture.registered (fixture_onDone ht now)
      simp only [fixture, hk, decide_true, Bool.or_true] at hreg
      exact Bool.false_ne_true (hnext.symm.trans hreg)

/-- When a session is about to show that it is established, only its registration is left to do. -/
theorem UnderWay.establishing {s : Session} (h : s.UnderWay) {rest : List Act}
    (ht : s.todo = .enter .established :: rest) :
    s.stage = .joining ∧ s.registered = false ∧ ∃ u, rest = [.register u] := by
  obtain ⟨ps, tail, hps, hp, ha⟩ := h.agenda
  rw [ht] at hps
  cases ps with
  | cons b ps =>
    obtain ⟨rfl, -⟩ := List.cons.inj hps
    exact (hp _ List.mem_cons_self).elim
  | nil =>
    rw [List.nil_append] at hps
    subst hps
    generalize s.stage = stage at ha ⊢
    generalize s.lifecycle = life at ha
    generalize s.linked = linked at ha
    generalize s.registered = registered at ha ⊢
    cases ha
    exact ⟨rfl, rfl, _, rfl⟩

/-- An event that can happen gives one thing to note, which is no state. -/
theorem noted_eq {s : Session} {e : Event} (h : s.admits e) :
    ∃ x, s.noted e = [x] ∧ ∀ l, x ≠ .became l := by
  cases e with
  | done lane r =>
    obtain ⟨a, hn, -⟩ := admits_done h
    refine ⟨.did lane a r, noted_done hn r, ?_⟩
    rintro l ⟨⟩
  | _ => exact ⟨_, rfl, by rintro l ⟨⟩⟩

end Session

namespace Course

/-- A session that has not registered has nothing of the backend yet. -/
structure Reserved (c : Course) : Prop where
  session : c.session.Reserved
  asked : asked c.notes = []

/-- The session has just shown that it is established. -/
def Establishes (c : Course) : Prop := c.notes.getLast? = some (.became .established)

theorem Reserved.next {c : Course} (h : c.Reserved) (hu : c.session.UnderWay)
    (hr : c.session.registered = false) {e : Event} (ha : c.session.admits e) (now : Nat)
    (hnext : (c.session.handle now e).registered = false) (s t : Session) :
    Reserved ⟨c.session.handle now e, c.notes ++ c.session.noted e ++ s.shown t⟩ where
  session := h.session.handle hu hr ha now hnext
  asked := by
    have hnoted : Notes.asked (c.session.noted e) = [] := by
      cases e with
      | done lane r =>
        obtain ⟨a, hn, -⟩ := Session.admits_done ha
        obtain rfl := hu.main_of_unregistered hr hn
        have hk := h.session.todo a (List.mem_of_mem_head? hn)
        rw [Session.noted_done hn]
        cases a <;> first | rfl | exact absurd rfl hk
      | _ => rfl
    have hshown : Notes.asked (s.shown t) = [] := by
      rcases s.shown_eq t with hs | hs <;> rw [hs] <;> rfl
    rw [asked_append, asked_append, h.asked, hnoted, hshown]
    rfl

theorem Establishes.next {t : Converters} {c : Course} (ho : Orderly t c) {e : Event}
    (ha : c.session.admits e) {now : Nat} (h : Establishes ⟨c.session.handle now e,
      c.notes ++ c.session.noted e ++ c.session.shown (c.session.handle now e)⟩) :
    (c.session.handle now e).stage = .joining ∧ (c.session.handle now e).registered = false ∧
      ∃ u, (c.session.handle now e).todo = [.register u] := by
  obtain ⟨x, hnoted, hx⟩ := Session.noted_eq ha
  unfold Establishes at h
  rw [hnoted, Session.shown] at h
  split at h
  · rw [List.append_nil, List.getLast?_concat] at h
    exact absurd (Option.some.inj h) (hx _)
  · next hlife =>
    obtain ⟨l, rest, rfl, ht, hmove⟩ := Session.entered_of_handle ha hlife
    rw [List.getLast?_concat, hmove] at h
    have hl := Note.became.inj (Option.some.inj h)
    -- A session under way enters it on its agenda, and a teardown never does.
    rcases ho.phase with ho | ⟨e', hclosing⟩
    · rw [((ho.underWay.head ht).2.1 l rfl).1] at hl
      subst hl
      obtain ⟨hs, hr, v, rfl⟩ := ho.underWay.establishing ht
      rw [Session.handle, Session.onDone_enter ht]
      simp only [Session.settle, hs]
      exact ⟨trivial, hr, v, rfl⟩
    · rw [(hclosing.entering ht).1] at hl
      subst hl
      have hmem := Session.mem_teardown (hclosing.mem_teardown (Session.next?_main ht))
      simp at hmem

/-- Until a session shows that it is established, nothing is converted for it and the backend hears
nothing of it. -/
theorem reserved_of_establishes (config : GatewayConfig) {t : Converters} (ht : t.Discreet)
    (id : SessionId) (now : Nat) (es : List (Nat × Event))
    (h : ((start config t id now).after es).Establishes) :
    ((start config t id now).after es).Reserved ∧
      ((start config t id now).after es).session.stage = .joining ∧
      ∃ u, ((start config t id now).after es).session.todo = [.register u] := by
  let P (c : Course) : Prop := (c.session.UnderWay → c.session.registered = false → c.Reserved) ∧
    (c.Establishes → c.session.stage = .joining ∧ c.session.registered = false ∧
      ∃ u, c.session.todo = [.register u])
  have hstart : P (start config t id now) :=
    ⟨fun _ _ => ⟨Session.reserved_start config t id now, rfl⟩, nofun⟩
  have hrun : P ((start config t id now).after es) := by
    refine (orderly_start config t id now).induction (P := P) ht hstart ?_ es
    rintro c now e ho ⟨hreserved, -⟩ ha
    refine ⟨fun hu hr => ?_, fun he => he.next ho ha⟩
    have hr' := Session.unregistered_of_handle ha hr
    rcases ho.phase with ho | ⟨e', hclosing⟩
    · exact (hreserved ho.underWay hr').next ho.underWay hr' ha now hr _ _
    · exact absurd (hclosing.next ha now).ending.stage (hu.not_ending e')
  obtain ⟨hreserved, hestablishes⟩ := hrun
  obtain ⟨hs, hr, hu⟩ := hestablishes h
  have hunder := (orderly_after config ht id now es).underWay (by simp [hs])
  exact ⟨hreserved hunder hr, hs, hu⟩

/-- A session that has shown that it is established did so with some event. -/
theorem exists_establishes {c : Course} (hc : .became .established ∉ c.notes) {es : List (Nat × Event)}
    (h : .became .established ∈ (c.after es).notes) :
    ∃ before since, es = before ++ since ∧ (c.after before).Establishes := by
  induction es generalizing c with
  | nil => exact absurd h hc
  | cons o es ih =>
    by_cases hn : .became .established ∈ (c.next o.1 o.2).notes
    · refine ⟨[o], es, rfl, ?_⟩
      change (c.next o.1 o.2).Establishes
      by_cases ha : c.session.admits o.2
      · obtain ⟨x, hnoted, hx⟩ := Session.noted_eq ha
        rw [next_notes ha, hnoted, List.append_assoc] at hn
        have hshown := (List.mem_append.mp hn).resolve_left hc
        rw [Establishes, next_notes ha, hnoted]
        rcases c.session.shown_eq (c.session.handle o.1 o.2) with hs | hs
        · rw [hs, List.append_nil] at hshown
          exact absurd (List.mem_singleton.mp hshown).symm (hx _)
        · rw [hs] at hshown ⊢
          have hlast := ((List.mem_append.mp hshown).resolve_left fun hm =>
            hx _ (List.mem_singleton.mp hm).symm)
          rw [← List.mem_singleton.mp hlast, List.getLast?_concat]
      · rw [next, if_neg ha] at hn
        exact absurd hn hc
    · obtain ⟨before, since, rfl, he⟩ := ih hn h
      exact ⟨o :: before, since, rfl, he⟩

end Course
end EditionGateway
