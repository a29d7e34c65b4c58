import EditionGateway.Proofs.Gateway.Liaison

/-!
How far a session and its link have got with the settings. Until the settings have gone out the link has no
threshold, and from then on it has the one that they announce; so every packet is framed by what has been
announced before it. After a packet that the link refuses, nothing more is told.
-/

namespace EditionGateway

open Datagram Notes

namespace Session

/-- The session ends, and has nothing more to tell. -/
def Mute (s : Session) : Prop :=
  (∃ e, s.Ending e) ∧ ∀ a ∈ s.todo, a.kind ≠ .tell ∧ a.kind ≠ .connect ∧ a.kind ≠ .register

namespace Mute

variable {s : Session}

theorem kind (h : s.Mute) {lane : Lane} {a : Act} (hn : s.next? lane = some a) : a.kind ≠ .tell := by
  obtain ⟨⟨e, he⟩, hall⟩ := h
  cases lane with
  | main => exact (hall a (List.mem_of_mem_head? hn)).1
  | toBackend => simp [next?, he.upward] at hn
  | toClient => simp [next?, he.downward] at hn
  | commands => simp [next?, he.notices] at hn

theorem handle (h : s.Mute) {e : Event} (ha : s.admits e) (now : Nat) : (s.handle now e).Mute := by
  obtain ⟨⟨err, he⟩, hall⟩ := h
  obtain ⟨a, r, rest, rfl, ht, hr⟩ := he.admits ha
  obtain ⟨-, hconnect, hregister⟩ := hall a (by rw [ht]; exact List.mem_cons_self)
  rw [he.handle_done ht (by rintro c rfl; exact hconnect rfl) (by rintro u rfl; exact hregister rfl) hr now]
  refine ⟨⟨err, he.stage, he.upward, he.downward, he.notices⟩, fun b hb => hall b ?_⟩
  rw [ht]
  exact List.mem_cons_of_mem _ hb

end Mute

theorem kind_of_mem_teardown {s : Session} {e : GatewayError} {a : Act} (h : a ∈ s.teardown e) :
    a.kind ≠ .connect ∧ a.kind ≠ .register := by
  rcases mem_teardown h with rfl | rfl | rfl | rfl | rfl | rfl | rfl <;> exact ⟨nofun, nofun⟩

theorem kind_of_not_told {as : List Act} (h : as.filterMap Act.told? = []) {a : Act} (ha : a ∈ as) :
    a.kind ≠ .tell := by
  have hnone := List.filterMap_eq_nil_iff.mp h a ha
  cases a with
  | tell p => cases hnone
  | _ => exact nofun

/-- A session whose link fails is mute. -/
theorem mute_fail (s : Session) {e : GatewayError} (h : e.clientReachable = false) : (s.fail e).Mute := by
  have htold : (s.teardown e).filterMap Act.told? = [] := by
    rw [told_teardown, h]
    rfl
  refine ⟨⟨e, rfl, rfl, rfl, rfl⟩, fun a ha => ⟨kind_of_not_told htold ha, ?_⟩⟩
  exact kind_of_mem_teardown ha

end Session

/-- In a teardown only one packet is told. -/
theorem Course.Closing.mute {c : Course} {e : GatewayError} (h : c.Closing e) {p : Client.Packet}
    {rest : List Act} (ht : c.session.todo = .tell p :: rest) (err : GatewayError) (now : Nat) :
    (c.session.handle now (.done .main (.error err))).Mute := by
  obtain ⟨n, m, -, -, hm⟩ := h.split
  have hplanned := hm.planned
  have hone := congrArg List.length (Session.told_teardown c.session e)
  rw [← hplanned, ht, List.filterMap_append, List.filterMap_cons] at hone
  have hrest : rest.filterMap Act.told? = [] := by
    rw [← List.length_eq_zero_iff]
    simp only [Act.told?, List.length_append, List.length_cons] at hone
    split at hone <;> simp only [List.length_nil, List.length_cons] at hone <;> omega
  rw [h.ending.handle_done ht nofun nofun (.inr rfl) now]
  refine ⟨⟨e, h.ending.stage, h.ending.upward, h.ending.downward, h.ending.notices⟩, fun a ha => ?_⟩
  refine ⟨Session.kind_of_not_told hrest ha, Session.kind_of_mem_teardown (e := e) (s := c.session) ?_⟩
  rw [← hplanned, ht]
  exact List.mem_append_right _ (List.mem_cons_of_mem _ ha)

namespace Course

theorem count_did {c : Course} {lane : Lane} {a : Act} {r : Except GatewayError Unit}
    (hn : c.session.next? lane = some a) (ha : c.session.admits (.done lane r)) (now : Nat) (k : Act.Kind) :
    count (c.next now (.done lane r)).notes k = count c.notes k + if a.kind = k then 1 else 0 := by
  rw [next_of_admits ha, count_append, count_append, count_shown, Session.noted_done hn]
  simp [count, List.countP_cons]

theorem count_heard {c : Course} {e : Event} (hd : ∀ lane r, e ≠ .done lane r) (now : Nat) (k : Act.Kind) :
    count (c.next now e).notes k = count c.notes k := by
  by_cases ha : c.session.admits e
  · have hnoted : c.session.noted e = [.heard e] := by
      cases e <;> first | rfl | exact absurd rfl (hd _ _)
    rw [next_of_admits ha, count_append, count_append, count_shown, hnoted]
    rfl
  · rw [next_of_not_admits ha]

theorem Orderly.handshaking {t : Converters} {c : Course} (h : Orderly t c)
    (hs : c.session.stage = .handshake) : c.session.UnderWay :=
  h.underWay fun _ he => nomatch hs.symm.trans he

/-- What has been read stays. -/
theorem mem_reads_next {c : Course} {p : Client.Packet} (hp : p ∈ reads c.notes) (now : Nat) (e : Event) :
    p ∈ reads (c.next now e).notes := by
  unfold next
  split
  · rw [reads_append, reads_append]
    exact List.mem_append_left _ (List.mem_append_left _ hp)
  · exact hp

end Course

namespace Liaison

open Mail

/-- The client has requested settings for a version that is spoken here. -/
def Asked (l : Liaison) : Prop :=
  ∃ n v, .requestNetworkSettings n ∈ reads l.course.notes ∧ Client.Version.select? n = some v

/-- How far a session and its link have got with the settings, which announce `u`. -/
inductive Phase (u : UInt16) (l : Liaison) : Prop
  | bare (todo : l.course.session.Routine) (threshold : l.link.threshold = none)
      (announced : announcements l.sent = []) (switched : count l.course.notes .compress = 0)
  | answering (todo : l.course.session.Settles [.tell (.networkSettings u), .compress u])
      (threshold : l.link.threshold = none) (announced : announcements l.sent = [])
      (switched : count l.course.notes .compress = 0) (asked : l.Asked)
  | switching (todo : l.course.session.Settles [.compress u]) (threshold : l.link.threshold = none)
      (announced : announcements l.sent = [u]) (switched : count l.course.notes .compress = 0)
      (asked : l.Asked)
  | marked (todo : l.course.session.Routine)
      (version : l.course.session.stage = .handshake → l.course.session.context.version ≠ none)
      (threshold : l.link.threshold = some u.toNat) (announced : announcements l.sent = [u])
      (switched : count l.course.notes .compress = 1) (asked : l.Asked)

/-- A packet leaves the threshold as it is, and announces what it does only if it goes out. -/
theorem Performed.tell {l l' : Liaison} {p : Client.Packet} {r : Except GatewayError Unit}
    (h : l.Performed (.tell p) r l') : l'.link.threshold = l.link.threshold ∧
      announcements l'.sent = announcements l.sent ++ if r.toBool then p.announces?.toList else [] := by
  cases h with
  | told p fragments link carries cut nextSeq threshold =>
    refine ⟨threshold, ?_⟩
    rw [announcements_append]
    cases h : p.announces? <;> simp [announcements, h, Except.toBool]
  | refused p e link threshold => exact ⟨threshold, (List.append_nil _).symm⟩
  | unwritten p e => exact ⟨rfl, (List.append_nil _).symm⟩
  | other a r link kind => exact absurd rfl kind.1

theorem Performed.compress {l l' : Liaison} {t : UInt16} {r : Except GatewayError Unit}
    (h : l.Performed (.compress t) r l') :
    l'.link.threshold = some t.toNat ∧ announcements l'.sent = announcements l.sent := by
  cases h with
  | compressed t => exact ⟨Threshold.clamp_toNat t, rfl⟩
  | other a r link kind => exact absurd rfl kind.2

/-- A routine act leaves the threshold as it is, and announces nothing. -/
theorem Performed.routine {l l' : Liaison} {a : Act} {r : Except GatewayError Unit}
    (h : l.Performed a r l') (ha : a.IsRoutine) :
    l'.link.threshold = l.link.threshold ∧ announcements l'.sent = announcements l.sent := by
  cases a with
  | tell p =>
    obtain ⟨hthreshold, hannounced⟩ := h.tell
    rw [Client.Packet.announces?_eq_none_iff.mpr ha] at hannounced
    exact ⟨hthreshold, hannounced.trans (by simp)⟩
  | compress t => exact ha.elim
  | _ => cases h with
    | other a r link kind nextSeq threshold => exact ⟨threshold, rfl⟩

variable {u : UInt16} {l : Liaison} {m : Mappings}

/-- While all is routine, nothing changes about the settings. -/
theorem Phase.runsOn (h : l.Phase u) (hr : l.course.session.Routine) {l' : Liaison}
    (hruns : l.course.session.RunsOn l'.course.session)
    (hlink : l'.link.threshold = l.link.threshold ∧ announcements l'.sent = announcements l.sent)
    (hcount : count l'.course.notes .compress = count l.course.notes .compress)
    (hreads : ∀ p ∈ reads l.course.notes, p ∈ reads l'.course.notes) : l'.Phase u := by
  obtain ⟨hthreshold, hannounced⟩ := hlink
  cases h with
  | bare todo threshold announced switched =>
    exact .bare hruns.routine (hthreshold.trans threshold) (hannounced.trans announced)
      (hcount.trans switched)
  | answering todo => exact absurd rfl (hr.todo (.tell (.networkSettings u)) (by simp [todo.todo]))
  | switching todo => exact (hr.todo (.compress u) (by simp [todo.todo])).elim
  | marked todo version threshold announced switched asked =>
    obtain ⟨n, v, hn, hv⟩ := asked
    refine .marked hruns.routine (fun hs => ?_) (hthreshold.trans threshold) (hannounced.trans announced)
      (hcount.trans switched) ⟨n, v, hreads _ hn, hv⟩
    obtain ⟨hstage, hversion⟩ := hruns.version hs
    rw [hversion]
    exact version hstage

/-- A first request finds a link without a threshold. -/
theorem Phase.requested (h : l.Phase u) {e : Event} (hr : l.course.session.Requested e) :
    l.link.threshold = none ∧ announcements l.sent = [] ∧ count l.course.notes .compress = 0 := by
  cases h with
  | bare todo threshold announced switched => exact ⟨threshold, announced, switched⟩
  | answering todo => exact absurd hr.version todo.version
  | switching todo => exact absurd hr.version todo.version
  | marked todo version => exact absurd hr.version (version hr.stage)

section

variable (h : l.Phase u) (ho : Course.Orderly (.standard m) l.course)
include h ho

/-- The session hears of something. -/
theorem Phase.hear (ht : l.course.session.threshold = u) {e : Event} (ha : l.course.session.admits e)
    (hd : ∀ lane r, e ≠ .done lane r) (idle : ∀ t rest, l.course.session.todo ≠ .compress t :: rest)
    (now : Nat) : Phase u { l with course := l.course.next now e } := by
  have hsession := Course.session_next ha now
  have hcount := Course.count_heard (c := l.course) hd now .compress
  by_cases hr : l.course.session.Routine
  · obtain hruns | ⟨hrequested, hanswering⟩ := hr.handle ho.converters ho.handshaking ha now
    · exact h.runsOn hr (hsession ▸ hruns) ⟨rfl, rfl⟩ hcount fun p hp => Course.mem_reads_next hp now e
    · obtain ⟨threshold, announced, switched⟩ := h.requested hrequested
      obtain ⟨n, v, rfl, hv⟩ := hrequested.request
      refine .answering ?_ threshold announced (hcount.trans switched) ⟨n, v, ?_, hv⟩
      · rw [Session.Answering, (Session.config_handle ha now).1, ht] at hanswering
        exact hsession ▸ hanswering
      · rw [Course.next_of_admits ha, reads_append, reads_append]
        exact List.mem_append_left _ (List.mem_append_right _ List.mem_cons_self)
  · cases h with
    | bare todo => exact absurd todo hr
    | marked todo => exact absurd todo hr
    | switching todo => exact absurd todo.todo (idle _ _)
    | answering todo threshold announced switched asked =>
      obtain ⟨rfl, -⟩ | ⟨-, hruns⟩ := todo.handle (ho.handshaking todo.stage) nofun ha now
      · exact absurd rfl (hd _ _)
      · exact .bare (hsession ▸ hruns.routine) threshold announced (hcount.trans switched)

/-- Something has been done for the session. -/
theorem Phase.did {lane : Lane} {a : Act} {r : Except GatewayError Unit}
    (hn : l.course.session.next? lane = some a) (ha : l.course.session.admits (.done lane r))
    {l' : Liaison} (hp : l.Performed a r l') (now : Nat) :
    Phase u { l' with course := l.course.next now (.done lane r) } := by
  have hsession := Course.session_next ha now
  have hcount := Course.count_did hn ha now .compress
  have hreads : ∀ p ∈ reads l.course.notes, p ∈ reads (l.course.next now (.done lane r)).notes :=
    fun p hp => Course.mem_reads_next hp now _
  by_cases hr : l.course.session.Routine
  · have hroutine := hr.next? hn
    rw [if_neg hroutine.kind, Nat.add_zero] at hcount
    obtain hruns | ⟨hrequested, -⟩ := hr.handle ho.converters ho.handshaking ha now
    · exact h.runsOn hr (hsession ▸ hruns) (hp.routine hroutine) hcount hreads
    · obtain ⟨n, v, heq, -⟩ := hrequested.request
      cases heq
  cases h with
  | bare todo => exact absurd todo hr
  | marked todo => exact absurd todo hr
  | answering todo threshold announced switched asked =>
    obtain ⟨n, v, hask, hv⟩ := asked
    obtain ⟨rfl, houtcome⟩ := todo.did (ho.handshaking todo.stage) nofun hn ha now
    obtain ⟨hthreshold, hannounced⟩ := hp.tell
    rw [announced] at hannounced
    obtain ⟨rfl, hsettles⟩ | ⟨-, ⟨err, rfl⟩, hruns⟩ := houtcome
    · exact .switching (hsession ▸ hsettles) (hthreshold.trans threshold) hannounced
        (hcount.trans switched) ⟨n, v, hreads _ hask, hv⟩
    · exact .bare (hsession ▸ hruns.routine) (hthreshold.trans threshold) hannounced
        (hcount.trans switched)
  | switching todo threshold announced switched asked =>
    obtain ⟨n, v, hask, hv⟩ := asked
    obtain ⟨rfl, ⟨rfl, hsettles⟩ | ⟨hfail, -⟩⟩ := todo.did (ho.handshaking todo.stage) trivial hn ha now
    · obtain ⟨hthreshold, hannounced⟩ := hp.compress
      refine .marked (hsession ▸ hsettles.routine) (fun _ => ?_) hthreshold (hannounced.trans announced) ?_
        ⟨n, v, hreads _ hask, hv⟩
      · show (l.course.next now _).session.context.version ≠ none
        rw [hsession]
        exact hsettles.version
      · rw [hcount, switched]
        rfl
    · cases hfail

end

/-- Whenever a packet is told, the link has the threshold that has been announced. -/
theorem Phase.agrees (h : l.Phase u) (ho : Course.Orderly (.standard m) l.course) {lane : Lane}
    {p : Client.Packet} (hn : l.course.session.next? lane = some (.tell p)) :
    l.link.threshold = Mail.announced none l.sent := by
  rw [announced_eq]
  cases h with
  | bare todo threshold announced => rw [threshold, announced]; rfl
  | answering todo threshold announced => rw [threshold, announced]; rfl
  | marked todo version threshold announced => rw [threshold, announced]; rfl
  | switching todo threshold announced =>
    obtain ⟨-, hdown, hnotices⟩ :=
      (ho.handshaking todo.stage).lanes (by rw [todo.stage]; exact nofun)
    cases lane with
    | main => simp [Session.next?, todo.todo] at hn
    | toBackend => simp [Session.next?] at hn
    | toClient => simp [Session.next?, hdown] at hn
    | commands => simp [Session.next?, hnotices] at hn

theorem Phase.ofLink (h : l.Phase u) {link : Connection} (hl : link.threshold = l.link.threshold) :
    Phase u { l with link } := by
  cases h with
  | bare todo threshold announced switched => exact .bare todo (hl.trans threshold) announced switched
  | answering todo threshold announced switched asked =>
    exact .answering todo (hl.trans threshold) announced switched asked
  | switching todo threshold announced switched asked =>
    exact .switching todo (hl.trans threshold) announced switched asked
  | marked todo version threshold announced switched asked =>
    exact .marked todo version (hl.trans threshold) announced switched asked

/-- What holds of a session and its link all along. -/
structure Faithful (m : Mappings) (u : UInt16) (z : Compression) (l : Liaison) : Prop where
  orderly : Course.Orderly (.standard m) l.course
  threshold : l.course.session.threshold = u
  compression : l.link.compression = z
  framed : Framed z none l.sent
  cut : ∀ (i : Nat) (x : Mail), l.sent[i]? = some x → x.IsCut (UInt32.ofNat i)
  numbered : l.link.nextSeq = UInt32.ofNat l.sent.length ∨ l.course.session.Mute
  phase : l.Phase u

theorem faithful_start (config : GatewayConfig) (m : Mappings) (id : SessionId) (now : Nat)
    {link : Connection} (fresh : link.nextSeq = 0) (plain : link.threshold = none) :
    (start config m id now link).Faithful m config.listener.compressionThreshold link.compression where
  orderly := Course.orderly_start config _ id now
  threshold := rfl
  compression := rfl
  framed := trivial
  cut i x hx := by cases hx
  numbered := .inl fresh
  phase := .bare (Session.routine_start config _ id now) plain rfl rfl

namespace Faithful

variable {z : Compression}

theorem course (h : l.Faithful m u z) {e : Event} (ha : l.course.session.admits e) (now : Nat) :
    Course.Orderly (.standard m) (l.course.next now e) ∧ (l.course.next now e).session.threshold = u := by
  rw [Course.next_of_admits ha]
  exact ⟨h.orderly.next (Converters.standard_discreet m) ha now,
    (Session.config_handle ha now).1.trans h.threshold⟩

theorem hear (h : l.Faithful m u z) {e : Event} (hd : ∀ lane r, e ≠ .done lane r)
    (idle : ∀ t rest, l.course.session.todo ≠ .compress t :: rest) (now : Nat) :
    Faithful m u z { l with course := l.course.next now e } := by
  by_cases ha : l.course.session.admits e
  · obtain ⟨horderly, hthreshold⟩ := h.course ha now
    refine ⟨horderly, hthreshold, h.compression, h.framed, h.cut, h.numbered.imp_right fun hm => ?_,
      h.phase.hear h.orderly h.threshold ha hd idle now⟩
    show (l.course.next now e).session.Mute
    rw [Course.session_next ha]
    exact hm.handle ha now
  · rw [Course.next_of_not_admits ha]
    exact h

/-- A session is mute after a packet that its link has refused. -/
theorem refused (h : l.Faithful m u z) {lane : Lane} {p : Client.Packet}
    (hn : l.course.session.next? lane = some (.tell p)) (err : LinkError) (now : Nat) :
    (l.course.session.handle now (.done lane (.error (.clientLink err)))).Mute := by
  rcases h.orderly.phase with ho | ⟨e, hc⟩
  · rw [ho.underWay.handle_failed]
    exact Session.mute_fail _ rfl
  · have ha : l.course.session.admits (.done lane (.error (.clientLink err))) :=
      Session.admits_of_result hn (.inr rfl)
    obtain ⟨a, r, rest, heq, ht, -⟩ := hc.ending.admits ha
    obtain ⟨rfl, rfl⟩ := Event.done.inj heq
    rw [Session.next?_main ht] at hn
    obtain rfl := Option.some.inj hn
    exact hc.mute ht _ now

theorem did (h : l.Faithful m u z) {lane : Lane} {a : Act} {r : Except GatewayError Unit}
    (hn : l.course.session.next? lane = some a) {l' : Liaison} (hp : l.Performed a r l') (now : Nat) :
    Faithful m u z { l' with course := l.course.next now (.done lane r) } := by
  by_cases ha : l.course.session.admits (.done lane r)
  · obtain ⟨horderly, hthreshold⟩ := h.course ha now
    have hphase := h.phase.did h.orderly hn ha hp now
    have hsession := Course.session_next ha now
    have hmute (hm : l.course.session.Mute) : (l.course.next now (.done lane r)).session.Mute := by
      rw [hsession]
      exact hm.handle ha now
    cases hp with
    | told p fragments link carries cut nextSeq threshold compression =>
      have hnumber := h.numbered.resolve_right fun hm => hm.kind hn rfl
      rw [h.phase.agrees h.orderly hn, h.compression] at carries
      refine ⟨horderly, hthreshold, compression.trans h.compression, ?_, fun i x hx => ?_, .inl ?_, hphase⟩
      · exact (framed_append _ _ _ _).mpr ⟨h.framed, carries, trivial⟩
      · rw [List.getElem?_append] at hx
        split at hx
        · exact h.cut i x hx
        · obtain ⟨hi, rfl⟩ := List.getElem?_eq_some_iff.mp hx
          obtain rfl : i = l.sent.length := by
            rw [List.length_singleton] at hi
            omega
          rw [← hnumber]
          simpa using cut
      · rw [nextSeq, hnumber, List.length_append, List.length_singleton, UInt32.ofNat_add]
        rfl
    | refused p e link threshold compression =>
      refine ⟨horderly, hthreshold, compression.trans h.compression, h.framed, h.cut, .inr ?_, hphase⟩
      show (l.course.next now _).session.Mute
      rw [hsession]
      exact h.refused hn e now
    | unwritten p e =>
      exact ⟨horderly, hthreshold, h.compression, h.framed, h.cut, h.numbered.imp_right hmute, hphase⟩
    | compressed t =>
      exact ⟨horderly, hthreshold, h.compression, h.framed, h.cut, h.numbered.imp_right hmute, hphase⟩
    | other a r link kind nextSeq threshold compression =>
      exact ⟨horderly, hthreshold, compression.trans h.compression, h.framed, h.cut,
        (h.numbered.imp_left nextSeq.trans).imp_right hmute, hphase⟩
  · -- what can fail is admitted with any result, so nothing has been done on the link
    rw [Course.next_of_not_admits ha]
    cases hp with
    | told p => exact absurd (Session.admits_of_result hn (.inr rfl)) ha
    | refused p e => exact absurd (Session.admits_of_result hn (.inr rfl)) ha
    | unwritten p e => exact absurd (Session.admits_of_result hn (.inr rfl)) ha
    | compressed t => exact absurd (Session.admits_of_result hn (.inl rfl)) ha
    | other a r link kind nextSeq threshold compression =>
      exact ⟨h.orderly, h.threshold, compression.trans h.compression, h.framed, h.cut,
        h.numbered.imp_left nextSeq.trans, h.phase.ofLink threshold⟩

theorem next (h : l.Faithful m u z) (now : Nat) (e : Event) : (l.next now e).Faithful m u z := by
  by_cases hd : ∃ lane r, e = .done lane r
  · obtain ⟨lane, r, rfl⟩ := hd
    unfold Liaison.next
    dsimp only
    split
    · exact h
    · next a hn =>
      have hp := l.performed r a
      generalize l.perform r a = done at hp ⊢
      obtain ⟨r', l'⟩ := done
      have hdid := h.did hn hp now
      rwa [← hp.course] at hdid
  · have hd (lane : Lane) (r : Except GatewayError Unit) : e ≠ .done lane r := fun heq => hd ⟨lane, r, heq⟩
    unfold Liaison.next
    split
    · exact absurd rfl (hd _ _)
    · split
      · exact h
      · next hidle => exact h.hear hd (fun t rest ht => hidle t rest ht) now

theorem after (h : l.Faithful m u z) (es : List (Nat × Event)) : (l.after es).Faithful m u z := by
  induction es generalizing l with
  | nil => exact h
  | cons o es ih => exact ih (h.next o.1 o.2)

/-- There is one packet of settings at most, and the threshold is set once at most. -/
theorem switched (h : l.Faithful m u z) :
    (announcements l.sent = [] ∨ announcements l.sent = [u]) ∧ count l.course.notes .compress ≤ 1 := by
  cases h.phase with
  | bare todo threshold announced switched => exact ⟨.inl announced, by omega⟩
  | answering todo threshold announced switched => exact ⟨.inl announced, by omega⟩
  | switching todo threshold announced switched => exact ⟨.inr announced, by omega⟩
  | marked todo version threshold announced switched => exact ⟨.inr announced, by omega⟩

/-- Nothing is announced to a client that has not asked for a version that is spoken here. -/
theorem unasked (h : l.Faithful m u z) (hl : ¬ l.Asked) : announcements l.sent = [] := by
  cases h.phase with
  | bare todo threshold announced => exact announced
  | answering todo threshold announced => exact announced
  | switching todo threshold announced switched asked => exact absurd asked hl
  | marked todo version threshold announced switched asked => exact absurd asked hl

end Faithful

end Liaison
end EditionGateway
