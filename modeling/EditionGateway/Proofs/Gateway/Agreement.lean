import EditionGateway.Gateway.InProcess
import EditionGateway.Proofs.Gateway.Soundness

/-!
The registry of a gateway and the states of its sessions agree, as long as no number of a session comes
again: there are fewer sessions in all than there are numbers.
-/

namespace EditionGateway

open Notes

/-- A session is in the registry because it was there before, or because it has been put there. -/
theorem Effect.before {id : SessionId} {b b' : Bool} {a : Act} {r : Except GatewayError Unit}
    {g g' : Option Registration} (h : Effect id b b' a r g g') (hb : b' = true) (lane : Lane) :
    b = true ∨ inserted [.did lane a r] = 1 := by
  cases h with
  | registered u ticket => exact .inr rfl
  | released b g hg => cases hb
  | _ => exact .inl hb

/-- Registering is refused only when the gateway shuts down or the session is in the registry. -/
theorem Effect.refusal {id : SessionId} {b b' : Bool} {u : String} {x : SessionId}
    {g g' : Option Registration}
    (h : Effect id b b' (.register u) (.error (.session (.alreadyRegistered x))) g g') :
    b = true := by
  cases h with
  | plain b a r g hr hd => exact absurd rfl hr
  | refused b u e g he => exact he.resolve_left nofun

namespace Chronicle

variable {σ : Type}

/-- The numbers of the sessions are all different, and so are the entries of the registry, each of
which is that of a session. `count` sessions have been welcomed. -/
structure Distinct (c : Chronicle σ) (count : Nat) : Prop where
  nextSession : c.host.nextSession = .ofNat (count + 1)
  ids : ∀ id ∈ c.host.seats.keys, id.value.toNat ≤ count
  seats : c.host.seats.keys.Nodup
  entries : c.host.registry.sessions.keys.Nodup
  seated : ∀ id, c.host.registry.holds id = true → id ∈ c.host.seats.keys ∧ 0 < inserted (c.notes id)
  free : ∀ id lane u x, id ∈ c.host.seats.keys →
    .did lane (.register u) (.error (.session (.alreadyRegistered x))) ∉ c.notes id

namespace Distinct

variable {c : Chronicle σ} {count : Nat}

theorem start (config : GatewayConfig) (mappings : Mappings) (network : σ) :
    Distinct (.start config mappings network) 0 where
  nextSession := rfl
  ids := by simp [Chronicle.start, Table.keys]
  seats := by simp [Chronicle.start, Table.keys]
  entries := by simp [Chronicle.start, Table.keys]
  seated := by simp [Chronicle.start, Registry.holds, Table.contains]
  free := by simp [Chronicle.start, Table.keys]

/-- The number of the next session is that of no other one. -/
theorem next_fresh (h : c.Distinct count) (hc : count + 1 < UInt64.size) :
    (⟨c.host.nextSession⟩ : SessionId) ∉ c.host.seats.keys := by
  intro hm
  have hle := h.ids _ hm
  rw [h.nextSession] at hle
  have hn : (UInt64.ofNat (count + 1)).toNat = count + 1 := UInt64.toNat_ofNat_of_lt hc
  simp only [hn] at hle
  omega

theorem welcome (h : c.Distinct count) (hc : count + 1 < UInt64.size) (address : Address) :
    (c.welcome address).Distinct (count + 1) := by
  have hfresh := h.next_fresh hc
  have hkeys : (c.welcome address).host.seats.keys = c.host.seats.keys ++ [⟨c.host.nextSession⟩] := by
    simp only [Chronicle.welcome, Host.welcome, Table.keys_insert]
    -- Nothing is replaced, as the number is new.
    rw [List.filter_eq_self.mpr]
    intro j hj
    have hne : j ≠ ⟨c.host.nextSession⟩ := by
      rintro rfl
      exact hfresh hj
    simpa using hne
  have hnotes {j : SessionId} (hj : j ≠ ⟨c.host.nextSession⟩) : (c.welcome address).notes j = c.notes j :=
    if_neg hj
  refine ⟨?_, ?_, ?_, h.entries, ?_, ?_⟩
  · simp only [Chronicle.welcome, Host.welcome, h.nextSession]
    rw [UInt64.ofNat_add (count + 1) 1]
    rfl
  · intro id hid
    rw [hkeys] at hid
    rcases List.mem_append.mp hid with hid | hid
    · exact Nat.le_succ_of_le (h.ids id hid)
    · rw [List.mem_singleton.mp hid, h.nextSession]
      exact Nat.le_of_eq (UInt64.toNat_ofNat_of_lt hc)
  · rw [hkeys]
    refine List.nodup_append.mpr ⟨h.seats, by simp, ?_⟩
    rintro a ha b hb rfl
    rw [List.mem_singleton.mp hb] at ha
    exact hfresh ha
  · intro id hid
    obtain ⟨hm, hi⟩ := h.seated id hid
    have hne : id ≠ ⟨c.host.nextSession⟩ := by
      rintro rfl
      exact hfresh hm
    rw [hkeys, hnotes hne]
    exact ⟨List.mem_append_left _ hm, hi⟩
  · intro id lane u x hid
    rw [hkeys] at hid
    rcases List.mem_append.mp hid with hid | hid
    · have hne : id ≠ ⟨c.host.nextSession⟩ := by
        rintro rfl
        exact hfresh hid
      rw [hnotes hne]
      exact h.free id lane u x hid
    · rw [List.mem_singleton.mp hid]
      simp [Chronicle.welcome, Host.welcome]

/-- What is done for a session, or what it is told, changes which sessions there are in nothing. -/
theorem hear (h : c.Distinct count) {k : Host σ} {id : SessionId} {seat : Seat} {e : Event}
    (hk : c.host.Keeps k id) (hs : c.host.seats.get? id = some seat)
    (hheld : k.registry.holds id = true → 0 < inserted ((c.course id seat).next k.now e).notes)
    (hfree : ∀ lane u x, .did lane (.register u) (.error (.session (.alreadyRegistered x))) ∉
      ((c.course id seat).next k.now e).notes) :
    Distinct (({ c with host := k } : Chronicle σ).hear id seat e) count := by
  have hkeys : (k.handle id seat e).seats.keys = c.host.seats.keys := by
    simp only [Host.handle, Table.keys_modify]
    exact hk.keys
  have hid : id ∈ c.host.seats.keys := (Table.mem_keys_iff _ _).mpr ⟨seat, hs⟩
  refine ⟨hk.nextSession.trans h.nextSession, ?_, ?_, hk.nodup h.entries, ?_, ?_⟩
  · simp only [Chronicle.hear, hkeys]
    exact h.ids
  · simp only [Chronicle.hear, hkeys]
    exact h.seats
  · intro j hj
    simp only [Chronicle.hear, hkeys]
    by_cases hji : j = id
    · subst hji
      rw [if_pos rfl]
      exact ⟨hid, hheld hj⟩
    · rw [if_neg hji]
      exact h.seated j ((hk.holds j hji).symm.trans hj)
  · intro j lane u x hj
    simp only [Chronicle.hear, hkeys] at hj ⊢
    split
    · exact hfree lane u x
    · exact h.free j lane u x hj

theorem tell (h : c.Distinct count) {id : SessionId} {seat : Seat} {e : Event}
    (hs : c.host.seats.get? id = some seat) (ha : seat.session.awaits e) (hd : e.isDone = false) :
    Distinct (c.hear id seat e) count := by
  have hadmits : seat.session.admits e := by
    cases e <;> first | exact ha | cases hd
  have hnoted : seat.session.noted e = [.heard e] := by
    cases e <;> first | rfl | cases hd
  have hid : id ∈ c.host.seats.keys := (Table.mem_keys_iff _ _).mpr ⟨seat, hs⟩
  refine h.hear (.refl c.host id) hs (fun hb => ?_) fun lane u x hx => ?_
  · have hi := (h.seated id hb).2
    rw [Course.next_notes hadmits, course_notes, inserted_append, inserted_append]
    omega
  · rw [Course.next_notes hadmits, course_notes, course_session, hnoted] at hx
    rcases List.mem_append.mp hx with hx | hx
    · rcases List.mem_append.mp hx with hx | hx
      · exact h.free id lane u x hid hx
      · exact absurd (List.mem_singleton.mp hx) nofun
    · exact Session.did_not_mem_shown _ _ hx

variable {config : GatewayConfig} {mappings : Mappings} [Network σ]

theorem perform (h : c.Distinct count) (hc : Sound config mappings c) {id : SessionId} {seat : Seat}
    {lane : Lane} {a : Act} (hs : c.host.seats.get? id = some seat)
    (ha : seat.session.next? lane = some a) : Distinct (c.perform id seat lane a) count := by
  obtain ⟨hk, registration, -, he⟩ := Host.perform_affected hs (hc.held id seat hs).owner a
  have hresult := c.host.perform_result id seat a
  unfold Chronicle.perform
  generalize c.host.perform id seat a = done at hk he hresult ⊢
  obtain ⟨r, k⟩ := done
  have hadmits := Session.admits_of_result ha hresult
  have hnoted := Session.noted_done ha r
  have hid : id ∈ c.host.seats.keys := (Table.mem_keys_iff _ _).mpr ⟨seat, hs⟩
  refine h.hear hk hs (fun hb => ?_) fun lane' u x hx => ?_
  · rw [Course.next_notes hadmits, course_notes, course_session, hnoted, inserted_append,
      inserted_append]
    -- It was there before, or it has been put there just now.
    rcases he.before hb lane with hb | hi
    · have hi := (h.seated id hb).2
      omega
    · dsimp only at hi
      omega
  · rw [Course.next_notes hadmits, course_notes, course_session, hnoted] at hx
    rcases List.mem_append.mp hx with hx | hx
    · rcases List.mem_append.mp hx with hx | hx
      · exact h.free id lane' u x hid hx
      · obtain ⟨rfl, rfl, rfl⟩ := Note.did.inj (List.mem_singleton.mp hx)
        -- The registry would have to hold a session that has never been put there.
        have hi := (h.seated id he.refusal).2
        have hz := ((hc.member hs).fresh lane' u ha).1
        rw [course_notes] at hz
        omega
    · exact Session.did_not_mem_shown _ _ hx

/-- What a move makes of the numbers. -/
theorem next (h : c.Distinct count) (hc : Sound config mappings c) (m : Move σ)
    (hw : count + [m].countP (·.isWelcome) < UInt64.size) :
    (c.next m).Distinct (count + [m].countP (·.isWelcome)) := by
  cases m with
  | welcome address => exact h.welcome hw address
  | perform id lane =>
    simp only [Chronicle.next]
    split
    · exact h
    · next seat hs =>
      split
      · exact h
      · next a ha => exact h.perform hc hs ha
  | tell id e =>
    simp only [Chronicle.next]
    split
    · exact h
    · next seat hs =>
      split
      · next hif => exact h.tell hs hif.1 (Bool.eq_false_iff.mpr hif.2)
      · exact h
  | beginShutdown => exact ⟨h.nextSession, h.ids, h.seats, h.entries, h.seated, h.free⟩
  | change network switchboard status now =>
    exact ⟨h.nextSession, h.ids, h.seats, h.entries, h.seated, h.free⟩

end Distinct

variable {config : GatewayConfig} {mappings : Mappings}

theorem distinct_after [Network σ] {c : Chronicle σ} {count : Nat} (h : c.Distinct count)
    (hc : Sound config mappings c) (ms : List (Move σ))
    (few : count + ms.countP (·.isWelcome) < UInt64.size) :
    (c.after ms).Distinct (count + ms.countP (·.isWelcome)) := by
  induction ms generalizing c count with
  | nil => exact h
  | cons m ms ih =>
    have hsum : (m :: ms).countP (·.isWelcome) =
        [m].countP (·.isWelcome) + ms.countP (·.isWelcome) := by
      rw [← List.countP_append, List.singleton_append]
    rw [hsum, ← Nat.add_assoc] at few ⊢
    exact ih (h.next hc m (by omega)) (hc.next m) few

/-- The registry holds just the sessions that have been put there and not been taken out. -/
theorem Distinct.holds_iff {c : Chronicle σ} {count : Nat} (h : c.Distinct count)
    (hc : Sound config mappings c) (id : SessionId) : c.host.registry.holds id = true ↔
      id ∈ c.host.seats.keys ∧ removed (c.notes id) < inserted (c.notes id) := by
  constructor
  · intro hb
    obtain ⟨hm, hi⟩ := h.seated id hb
    obtain ⟨seat, hs⟩ := (Table.mem_keys_iff _ _).mp hm
    refine ⟨hm, ?_⟩
    cases hc.held id seat hs with
    | absent hn hg => omega
    | present ticket hn hg hz =>
      have hz' : removed (c.notes id) = 0 := of_decide_eq_true (hz.symm.trans hb)
      omega
  · rintro ⟨hm, hlt⟩
    obtain ⟨seat, hs⟩ := (Table.mem_keys_iff _ _).mp hm
    have hmember := hc.member hs
    have hle := hmember.register_le
    have hin := inserted_le (c.notes id)
    rw [course_notes] at hle
    cases hc.held id seat hs with
    | absent hn hg => omega
    | present ticket hn hg hz =>
      rw [hz]
      exact decide_eq_true (by omega)

/-- The registry and the states of the sessions agree, in whichever order the sessions get on and
whenever the gateway begins to shut down. -/
theorem registry_agrees [Network σ] (config : GatewayConfig) (mappings : Mappings) (network : σ)
    (ms : List (Move σ)) (few : ms.countP (·.isWelcome) < UInt64.size) :
    let c := (start config mappings network).after ms
    (∀ id, c.host.registry.sessions.contains id = true →
      ∃ seat, c.host.seats.get? id = some seat ∧
        (seat.session.lifecycle = .established ∨ seat.session.lifecycle = .closing)) ∧
    (∀ id seat, c.host.seats.get? id = some seat →
      seat.session.lifecycle < .established ∨ seat.session.lifecycle = .closed →
        c.host.registry.sessions.contains id = false) ∧
    (∀ id ∈ c.host.seats.keys, count (c.notes id) .register ≤ 1 ∧
      inserted (c.notes id) ≤ 1 ∧ removed (c.notes id) ≤ 1 ∧
      ∀ lane u x, .did lane (.register u) (.error (.session (.alreadyRegistered x))) ∉ c.notes id) ∧
    c.host.registry.size =
      c.host.seats.keys.countP fun id => removed (c.notes id) < inserted (c.notes id) := by
  intro c
  have hc : Sound config mappings c := sound_after config mappings network ms
  have hd : c.Distinct (0 + ms.countP (·.isWelcome)) :=
    distinct_after (Distinct.start config mappings network) (.start config mappings network) ms
      (by omega)
  clear_value c
  have hpresent (id : SessionId) (seat : Seat) (hs : c.host.seats.get? id = some seat)
      (hb : c.host.registry.holds id = true) :
      seat.session.lifecycle = .established ∨ seat.session.lifecycle = .closing :=
    (hc.member hs).present ((hd.holds_iff hc id).mp hb).2
  refine ⟨fun id hb => ?_, fun id seat hs hl => ?_, fun id hm => ?_, ?_⟩
  · obtain ⟨seat, hs⟩ := (Table.mem_keys_iff _ _).mp (hd.seated id hb).1
    exact ⟨seat, hs, hpresent id seat hs hb⟩
  · refine Bool.eq_false_iff.mpr fun hb => ?_
    rcases hpresent id seat hs hb with he | he <;> rw [he] at hl <;> revert hl <;> decide
  · obtain ⟨seat, hs⟩ := (Table.mem_keys_iff _ _).mp hm
    have hmember := hc.member hs
    have hin := inserted_le (c.notes id)
    exact ⟨hmember.register_le, Nat.le_trans hin hmember.register_le, hmember.removed_le,
      fun lane u x => hd.free id lane u x hm⟩
  · -- Both lists are without repetition and have the same elements.
    have hperm : c.host.registry.sessions.keys.Perm
        (c.host.seats.keys.filter fun id => removed (c.notes id) < inserted (c.notes id)) := by
      refine (List.perm_ext_iff_of_nodup hd.entries (hd.seats.filter _)).mpr fun id => ?_
      rw [← Table.contains_iff, List.mem_filter, decide_eq_true_iff]
      exact hd.holds_iff hc id
    rw [List.countP_eq_length_filter, ← hperm.length_eq]
    simp [Registry.size, Table.keys]

/-- Of two sessions only the one that has registered is in the registry. -/
theorem registry_agrees_of_two :
    let ms := [.welcome "127.0.0.1:1", .welcome "127.0.0.1:2"] ++
      Move.through ⟨1⟩ (Course.welcomed ++ [.done .main (.ok ())])
    let c := (start {} {} ({} : InProcess)).after ms
    ms.countP (·.isWelcome) < UInt64.size ∧ c.host.registry.size = 1 := by
  intro ms c
  have few : ms.countP (·.isWelcome) < UInt64.size := by decide
  have hsize := (registry_agrees {} {} ({} : InProcess) ms few).2.2.2
  exact ⟨few, hsize.trans rfl⟩

end Chronicle
end EditionGateway
