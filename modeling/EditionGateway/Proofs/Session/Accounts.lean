import Mathlib.Data.List.Induction
import EditionGateway.Proofs.Session.Custody

/-!
The books of a registry over any history of calls: what has come of each call, beside the counters and
the sessions. Whatever happens to the registrations, the counters agree with the log and with the
sessions that are there: `stays_balanced`.
-/

namespace EditionGateway

/-- A call is a deed, or it only looks at the registry. -/
inductive RegistryCall
  | deed (d : Deed)
  | snapshot

/-- What has come of a call. A registration that is given back takes a session out, or finds none, or
has been given back before. -/
inductive Outcome
  | registered (h : SessionHandle)
  | refused (h : SessionHandle) (e : SessionError)
  | removed (id : SessionId)
  | missed (id : SessionId)
  | idle
  | shutdown
  | snapshot (handles : List SessionHandle)

namespace Outcome

def isAdmission : Outcome → Bool
  | registered _ => true
  | _ => false

def isRefusal : Outcome → Bool
  | refused _ _ => true
  | _ => false

def isRemoval : Outcome → Bool
  | removed _ => true
  | _ => false

def isShutdown : Outcome → Bool
  | shutdown => true
  | _ => false

end Outcome

/-- What has come of one call after the other, oldest first. -/
abbrev Log := List Outcome

namespace Log

/-- How many calls have put a session in. -/
def admissions (l : Log) : Nat := l.countP (·.isAdmission)

/-- How many calls have been refused. -/
def refusals (l : Log) : Nat := l.countP (·.isRefusal)

/-- How often a session has been taken out. -/
def removals (l : Log) : Nat := l.countP (·.isRemoval)

variable (l : Log) (x : Outcome)

theorem countP_concat (p : Outcome → Bool) : (l ++ [x]).countP p = l.countP p + (p x).toNat := by
  rw [List.countP_append, List.countP_singleton]
  cases p x <;> rfl

theorem admissions_concat : admissions (l ++ [x]) = admissions l + x.isAdmission.toNat :=
  countP_concat l x _

theorem refusals_concat : refusals (l ++ [x]) = refusals l + x.isRefusal.toNat :=
  countP_concat l x _

theorem removals_concat : removals (l ++ [x]) = removals l + x.isRemoval.toNat :=
  countP_concat l x _

end Log

namespace Custody

def removal (s : Custody) (id : SessionId) : Outcome :=
  if (s.registry.deregister id).1 then .removed id else .missed id

def giveBackOutcome (s : Custody) (k : Nat) : Outcome :=
  match s.given[k]? with
  | none => .idle
  | some (_, g) => if g.released then .idle else s.removal g.id

def outcome (s : Custody) : RegistryCall → Outcome
  | .deed (.register h) =>
    match (s.registry.register h).1 with
    | .ok _ => .registered h
    | .error e => .refused h e
  | .deed (.release k) => s.giveBackOutcome k
  | .deed (.drop k) => s.giveBackOutcome k
  | .deed (.deregister id) => s.removal id
  | .deed .beginShutdown => .shutdown
  | .snapshot => .snapshot s.registry.snapshot

end Custody

namespace Registry

/-- The ids of the sessions that a snapshot shows. -/
def ids (r : Registry) : List SessionId := r.snapshot.map (·.id)

/-- Every session stands under its own id, and no id has two. -/
structure Ordered (r : Registry) : Prop where
  own : ∀ e ∈ r.sessions, e.2.handle.id = e.1
  distinct : r.sessions.keys.Nodup

/-- What a call does to a registry, by what comes of it. -/
inductive Effect (r : Registry) : Outcome → Registry → Prop
  | registered (h : SessionHandle) (accepting : r.shuttingDown = false) (free : h.id ∉ r.ids) :
    Effect r (.registered h) { r with
      sessions := r.sessions.insert h.id ⟨h, r.registered⟩, registered := r.registered + 1 }
  | refused (h : SessionHandle) (e : SessionError)
    (reason : r.shuttingDown = true ∨ h.id ∈ r.ids) :
    Effect r (.refused h e) { r with rejected := r.rejected + 1 }
  | removed (id : SessionId) (present : id ∈ r.ids) :
    Effect r (.removed id) { r with
      sessions := r.sessions.erase id, deregistered := r.deregistered + 1 }
  | missed (id : SessionId) (absent : id ∉ r.ids) : Effect r (.missed id) r
  | idle : Effect r .idle r
  | shutdown : Effect r .shutdown r.beginShutdown
  | snapshot : Effect r (.snapshot r.snapshot) r

namespace Effect

variable {r r' : Registry} {x : Outcome}

theorem shuttingDown (e : r.Effect x r') :
    r'.shuttingDown = (r.shuttingDown || x.isShutdown) := by
  cases e with
  | shutdown => exact (Bool.or_true _).symm
  | _ => exact (Bool.or_false _).symm

/-- No call is about the status of the backend. -/
theorem status (e : r.Effect x r') : r'.status = r.status := by
  cases e <;> rfl

theorem registered_eq (e : r.Effect x r') :
    r'.registered = r.registered + .ofNat x.isAdmission.toNat := by
  cases e with
  | registered h _ _ => rfl
  | _ => exact (UInt64.add_zero _).symm

theorem deregistered_eq (e : r.Effect x r') :
    r'.deregistered = r.deregistered + .ofNat x.isRemoval.toNat := by
  cases e with
  | removed id _ => rfl
  | _ => exact (UInt64.add_zero _).symm

theorem rejected_eq (e : r.Effect x r') : r'.rejected = r.rejected + .ofNat x.isRefusal.toNat := by
  cases e with
  | refused h _ _ => rfl
  | _ => exact (UInt64.add_zero _).symm

/-- From when it shuts down a registry only loses sessions. -/
theorem sublist (e : r.Effect x r') (hr : r.shuttingDown = true) :
    r'.sessions.Sublist r.sessions := by
  cases e with
  | registered _ accepting _ =>
    rw [accepting] at hr
    cases hr
  | removed _ _ => exact List.filter_sublist
  | _ => exact .refl _

end Effect

theorem length_snapshot (r : Registry) : r.snapshot.length = r.size := by
  simp [snapshot, Table.values, size]

namespace Ordered

variable {r r' : Registry} {x : Outcome}

theorem start : Ordered {} := ⟨nofun, List.nodup_nil⟩

theorem ids_eq (o : r.Ordered) : r.ids = r.sessions.keys := by
  rw [ids, snapshot, Table.values, List.map_map, List.map_map, Table.keys]
  exact List.map_congr_left o.own

theorem holds_iff (o : r.Ordered) (id : SessionId) : r.holds id = true ↔ id ∈ r.ids := by
  rw [holds, Table.contains_iff, o.ids_eq]

/-- A registration is granted if the registry takes sessions and the id is free. -/
theorem effect_register (o : r.Ordered) (h : SessionHandle) :
    (∃ g, (r.register h).1 = .ok g ∧ r.Effect (.registered h) (r.register h).2) ∨
      ∃ e, (r.register h).1 = .error e ∧ r.Effect (.refused h e) (r.register h).2 := by
  unfold register
  split
  · next hs => exact .inr ⟨_, rfl, .refused h _ (.inl hs)⟩
  · next hs =>
    split
    · next hc => exact .inr ⟨_, rfl, .refused h _ (.inr ((o.holds_iff h.id).mp hc))⟩
    · next hc =>
      have hfree : h.id ∉ r.ids := fun hid => hc ((o.holds_iff h.id).mpr hid)
      exact .inl ⟨_, rfl, .registered h (Bool.eq_false_iff.mpr hs) hfree⟩

/-- A session is taken out if it is there. -/
theorem effect_deregister (o : r.Ordered) (id : SessionId) :
    ((r.deregister id).1 = true ∧ r.Effect (.removed id) (r.deregister id).2) ∨
      ((r.deregister id).1 = false ∧ r.Effect (.missed id) (r.deregister id).2) := by
  unfold deregister
  split
  · next hc => exact .inl ⟨rfl, .removed id ((o.holds_iff id).mp hc)⟩
  · next hc => exact .inr ⟨rfl, .missed id fun hid => hc ((o.holds_iff id).mpr hid)⟩

/-- A registration is refused if the registry shuts down or the id is taken, and then nothing changes
but the number of refusals. -/
theorem register_fails_iff (o : r.Ordered) (h : SessionHandle) :
    ((∃ e, (r.register h).1 = .error e) ↔ r.shuttingDown = true ∨ h.id ∈ r.ids) ∧
      ∀ e, (r.register h).1 = .error e → (r.register h).2 = { r with rejected := r.rejected + 1 } := by
  have hcases := o.effect_register h
  generalize r.register h = result at hcases ⊢
  obtain ⟨result, r'⟩ := result
  dsimp only at hcases
  rcases hcases with ⟨g, rfl, e⟩ | ⟨x, rfl, e⟩
  · cases e with
    | registered _ accepting free =>
      refine ⟨iff_of_false nofun ?_, nofun⟩
      rintro (hdown | hid)
      · exact Bool.false_ne_true (accepting.symm.trans hdown)
      · exact free hid
  · cases e with
    | refused _ _ reason => exact ⟨iff_of_true ⟨x, rfl⟩ reason, fun _ _ => rfl⟩

theorem deregister_iff (o : r.Ordered) (id : SessionId) :
    (r.deregister id).1 = true ↔ id ∈ r.ids := by
  have hcases := o.effect_deregister id
  generalize r.deregister id = result at hcases ⊢
  obtain ⟨result, r'⟩ := result
  dsimp only at hcases
  rcases hcases with ⟨rfl, e⟩ | ⟨rfl, e⟩
  · cases e with
    | removed _ present => exact iff_of_true rfl present
  · cases e with
    | missed _ absent => exact iff_of_false Bool.false_ne_true absent

theorem size_insert (o : r.Ordered) {id : SessionId} (absent : id ∉ r.ids) (e : RegistryEntry) :
    (r.sessions.insert id e).length = r.size + 1 := by
  have hget : r.sessions.get? id = none := by
    rw [← Option.not_isSome_iff_eq_none]
    exact fun hc => absent ((o.holds_iff id).mp hc)
  rw [Table.insert, Table.erase_of_absent hget, List.length_append]
  rfl

theorem size_erase (o : r.Ordered) {id : SessionId} (present : id ∈ r.ids) :
    (r.sessions.erase id).length + 1 = r.size := by
  have hmem : id ∈ r.sessions.keys := o.ids_eq ▸ present
  have hkeys : (r.sessions.erase id).keys = r.sessions.keys.erase id := by
    rw [Table.keys_erase, o.distinct.erase_eq_filter]
    exact List.filter_congr fun j _ => by simp [bne, Bool.beq_eq_decide_eq]
  have hlen := congrArg List.length hkeys
  have hpos := List.length_pos_of_mem hmem
  simp only [List.length_erase_of_mem hmem] at hlen
  simp only [Table.keys, List.length_map] at hlen hpos
  rw [size]
  omega

/-- A call adds a session or takes one out, or leaves their number as it is. -/
theorem size_effect (o : r.Ordered) (e : r.Effect x r') :
    r'.size + x.isRemoval.toNat = r.size + x.isAdmission.toNat := by
  cases e with
  | registered _ _ free => exact o.size_insert free _
  | removed _ present => exact o.size_erase present
  | _ => rfl

/-- A call keeps the order. -/
theorem effect (o : r.Ordered) (e : r.Effect x r') : r'.Ordered := by
  cases e with
  | registered h _ _ =>
    refine ⟨fun e he => ?_, Table.nodup_keys_insert o.distinct _ _⟩
    rcases List.mem_append.mp he with hold | hnew
    · exact o.own e (List.mem_filter.mp hold |>.1)
    · rw [List.mem_singleton.mp hnew]
  | removed id _ =>
    exact ⟨fun e he => o.own e (List.mem_filter.mp he).1, Table.nodup_keys_erase o.distinct id⟩
  | refused _ _ _ => exact ⟨o.own, o.distinct⟩
  | missed _ _ => exact o
  | idle => exact o
  | shutdown => exact ⟨o.own, o.distinct⟩
  | snapshot => exact o

end Ordered

/-- The counters and the sessions agree with a log. -/
structure Balanced (r : Registry) (l : Log) : Prop where
  ordered : r.Ordered
  live : r.size + l.removals = l.admissions
  registered : r.registered = .ofNat l.admissions
  deregistered : r.deregistered = .ofNat l.removals
  rejected : r.rejected = .ofNat l.refusals

namespace Balanced

variable {r r' : Registry} {l : Log} {x : Outcome}

theorem start : Balanced {} [] := ⟨.start, rfl, rfl, rfl, rfl⟩

theorem updateStatus (b : r.Balanced l) (s : BackendStatus) : (r.updateStatus s).Balanced l :=
  ⟨⟨b.ordered.own, b.ordered.distinct⟩, b.live, b.registered, b.deregistered, b.rejected⟩

/-- The books stay balanced with every call. -/
theorem effect (b : r.Balanced l) (e : r.Effect x r') : r'.Balanced (l ++ [x]) where
  ordered := b.ordered.effect e
  live := by
    have hlive := b.live
    have hsize := b.ordered.size_effect e
    rw [Log.removals_concat, Log.admissions_concat]
    omega
  registered := by rw [Log.admissions_concat, UInt64.ofNat_add, ← b.registered, e.registered_eq]
  deregistered := by rw [Log.removals_concat, UInt64.ofNat_add, ← b.deregistered, e.deregistered_eq]
  rejected := by rw [Log.refusals_concat, UInt64.ofNat_add, ← b.rejected, e.rejected_eq]

end Balanced

end Registry

namespace Custody

variable {s : Custody}

theorem removal_effect (o : s.registry.Ordered) (id : SessionId) :
    s.registry.Effect (s.removal id) (s.registry.deregister id).2 := by
  rw [removal]
  rcases o.effect_deregister id with ⟨h, e⟩ | ⟨h, e⟩
  · rwa [if_pos h]
  · rwa [if_neg (Bool.eq_false_iff.mp h)]

/-- A call that is refused gives out no registration. -/
theorem register_of_error {h : SessionHandle} {e : SessionError}
    (he : (s.registry.register h).1 = .error e) :
    s.register h = { s with registry := (s.registry.register h).2 } := by
  unfold register
  split
  · next hr =>
    rw [hr] at he
    cases he
  · next hr => rw [hr]

theorem registry_register (s : Custody) (h : SessionHandle) :
    (s.register h).registry = (s.registry.register h).2 := by
  unfold register
  split
  · next hr => rw [hr]
  · next hr => rw [hr]

theorem register_effect (o : s.registry.Ordered) (h : SessionHandle) :
    s.registry.Effect (s.outcome (.deed (.register h))) (s.register h).registry := by
  rw [registry_register]
  rcases o.effect_register h with ⟨g, hr, e⟩ | ⟨x, hr, e⟩
  · simpa only [outcome, hr] using e
  · simpa only [outcome, hr] using e

theorem giveBack_effect (o : s.registry.Ordered) (k : Nat) :
    s.registry.Effect (s.giveBackOutcome k) (s.giveBack k).registry := by
  unfold giveBackOutcome giveBack
  cases s.given[k]? with
  | none => exact .idle
  | some e =>
    obtain ⟨h, g⟩ := e
    simp only [Registry.release]
    split
    · exact .idle
    · exact removal_effect o g.id

theorem outcome_isShutdown (s : Custody) (c : RegistryCall) :
    (s.outcome c).isShutdown = true ↔ c = .deed .beginShutdown := by
  have hremoval (id : SessionId) : (s.removal id).isShutdown = false := by
    unfold removal
    split <;> rfl
  have hback (k : Nat) : (s.giveBackOutcome k).isShutdown = false := by
    unfold giveBackOutcome
    split
    · rfl
    · split
      · rfl
      · exact hremoval _
  cases c with
  | snapshot => exact iff_of_false Bool.false_ne_true nofun
  | deed d =>
    cases d with
    | register h =>
      refine iff_of_false ?_ nofun
      simp only [outcome]
      split <;> exact Bool.false_ne_true
    | release k => exact iff_of_false (Bool.eq_false_iff.mp (hback k)) nofun
    | drop k => exact iff_of_false (Bool.eq_false_iff.mp (hback k)) nofun
    | deregister id => exact iff_of_false (Bool.eq_false_iff.mp (hremoval id)) nofun
    | beginShutdown => exact iff_of_true rfl rfl

end Custody

/-- A registry, its registrations and a log of what has come of the calls, oldest first. -/
structure Books where
  custody : Custody := {}
  log : Log := []

namespace Books

def registry (b : Books) : Registry := b.custody.registry

def next (b : Books) (c : RegistryCall) : Books where
  custody := match c with
    | .deed d => b.custody.next d
    | .snapshot => b.custody
  log := b.log ++ [b.custody.outcome c]

def after (b : Books) (cs : List RegistryCall) : Books := cs.foldl next b

theorem after_append (b : Books) (cs ds : List RegistryCall) :
    b.after (cs ++ ds) = (b.after cs).after ds := List.foldl_append

theorem effect_next {b : Books} (o : b.registry.Ordered) (c : RegistryCall) :
    b.registry.Effect (b.custody.outcome c) (b.next c).registry := by
  cases c with
  | snapshot => exact .snapshot
  | deed d =>
    cases d with
    | register h => exact Custody.register_effect o h
    | release k => exact Custody.giveBack_effect o k
    | drop k => exact Custody.giveBack_effect o k
    | deregister id => exact Custody.removal_effect o id
    | beginShutdown => exact .shutdown

theorem balanced_after (cs : List RegistryCall) : (after {} cs).registry.Balanced (after {} cs).log := by
  induction cs using List.reverseRecOn with
  | nil => exact .start
  | append_singleton cs c ih =>
    rw [after_append]
    exact ih.effect (effect_next ih.ordered c)

theorem shuttingDown_after (cs : List RegistryCall) :
    (after {} cs).registry.shuttingDown = true ↔ .deed .beginShutdown ∈ cs := by
  induction cs using List.reverseRecOn with
  | nil => exact iff_of_false Bool.false_ne_true List.not_mem_nil
  | append_singleton cs c ih =>
    have heffect := effect_next (balanced_after cs).ordered c
    rw [after_append]
    change ((after {} cs).next c).registry.shuttingDown = true ↔ _
    rw [heffect.shuttingDown, Bool.or_eq_true, ih, List.mem_append, List.mem_singleton,
      Custody.outcome_isShutdown, eq_comm (a := c)]

/-- Once it shuts down, a registry only loses sessions. -/
theorem sublist_after {b : Books} (o : b.registry.Ordered) (hb : b.registry.shuttingDown = true)
    (cs : List RegistryCall) : (b.after cs).registry.sessions.Sublist b.registry.sessions := by
  induction cs generalizing b with
  | nil => exact .refl _
  | cons c cs ih =>
    have heffect := effect_next o c
    have hdown : (b.next c).registry.shuttingDown = true := by
      rw [heffect.shuttingDown, hb, Bool.true_or]
    exact (ih (o.effect heffect) hdown).trans (heffect.sublist hb)

theorem log_after (b : Books) (cs : List RegistryCall) :
    ∃ xs : Log, (b.after cs).log = b.log ++ xs ∧ xs.length = cs.length := by
  induction cs generalizing b with
  | nil => exact ⟨[], (List.append_nil _).symm, rfl⟩
  | cons c cs ih =>
    obtain ⟨xs, hlog, hlen⟩ := ih (b.next c)
    refine ⟨b.custody.outcome c :: xs, ?_, by rw [List.length_cons, List.length_cons, hlen]⟩
    exact hlog.trans (List.append_assoc ..)

/-- Whatever is done with a registry and its registrations, the counters agree with what has come of
the calls and with the sessions that are there, a session is taken in or out when it should be, and
what a call has told stays as it is. -/
theorem stays_balanced (cs more : List RegistryCall) :
    let b := after {} cs
    let r := b.registry
    (.ofNat r.stats.live = r.stats.registered - r.stats.deregistered ∧
      r.stats.live + b.log.removals = b.log.admissions ∧
      r.stats.registered = .ofNat b.log.admissions ∧
      r.stats.deregistered = .ofNat b.log.removals ∧
      r.stats.rejected = .ofNat b.log.refusals ∧
      r.stats.live = r.snapshot.length ∧ r.ids.Nodup) ∧
    (∀ h, ((∃ e, (r.register h).1 = .error e) ↔ .deed .beginShutdown ∈ cs ∨ h.id ∈ r.ids) ∧
      ∀ e, (r.register h).1 = .error e →
        b.custody.register h = { b.custody with registry := { r with rejected := r.rejected + 1 } }) ∧
    (∀ id, (r.deregister id).1 = true ↔ id ∈ r.ids) ∧
    (.deed .beginShutdown ∈ cs → (b.after more).registry.sessions.Sublist r.sessions) ∧
    (after {} (cs ++ .snapshot :: more)).log[cs.length]? = some (.snapshot r.snapshot) := by
  intro b r
  have hb : r.Balanced b.log := balanced_after cs
  have hdown : r.shuttingDown = true ↔ .deed .beginShutdown ∈ cs := shuttingDown_after cs
  refine ⟨⟨?_, hb.live, hb.registered, hb.deregistered, hb.rejected, r.length_snapshot.symm, ?_⟩,
    fun h => ⟨?_, fun e he => ?_⟩, hb.ordered.deregister_iff, fun h => ?_, ?_⟩
  · change UInt64.ofNat r.size = r.registered - r.deregistered
    rw [hb.registered, hb.deregistered, ← hb.live, UInt64.ofNat_add]
    exact (UInt64.add_sub_cancel ..).symm
  · exact hb.ordered.ids_eq.symm ▸ hb.ordered.distinct
  · rw [(hb.ordered.register_fails_iff h).1, hdown]
  · rw [Custody.register_of_error he]
    exact congrArg ({ b.custody with registry := · }) ((hb.ordered.register_fails_iff h).2 e he)
  · exact sublist_after hb.ordered (hdown.mpr h) more
  · obtain ⟨xs, hxs, hlen⟩ := log_after {} cs
    obtain ⟨ys, hys, -⟩ := log_after (b.next .snapshot) more
    have hlog : (after {} (cs ++ .snapshot :: more)).log = xs ++ .snapshot r.snapshot :: ys := by
      rw [after_append]
      refine hys.trans ?_
      change b.log ++ [.snapshot r.snapshot] ++ ys = _
      rw [hxs, List.append_assoc]
      rfl
    rw [hlog, ← hlen, List.getElem?_append_right (Nat.le_refl _), Nat.sub_self]
    rfl

/-- A session is registered, registered again and given back twice; another one comes before the registry
shuts down, and a third one after that. -/
def eventful : List RegistryCall :=
  let handle (id : UInt64) : SessionHandle := ⟨⟨id⟩, "Steve", "10.0.0.1:40000", 0⟩
  [.deed (.register (handle 1)), .deed (.register (handle 1)), .deed (.release 0), .deed (.drop 0),
    .deed (.register (handle 2)), .deed .beginShutdown, .deed (.register (handle 3))]

theorem stays_balanced_eventful :
    (after {} eventful).registry.stats = ⟨1, 2, 1, 2⟩ ∧
      ((after {} eventful).registry.stats.live + (after {} eventful).log.removals =
        (after {} eventful).log.admissions) ∧
      ((after {} eventful).after [.deed (.release 1)]).registry.sessions.Sublist
        (after {} eventful).registry.sessions := by
  obtain ⟨⟨-, hlive, -⟩, -, -, hshrinks, -⟩ := stays_balanced eventful [.deed (.release 1)]
  have hshutdown : .deed .beginShutdown ∈ eventful := by simp [eventful]
  exact ⟨rfl, hlive, hshrinks hshutdown⟩

end Books
end EditionGateway
