import EditionGateway.Proofs.Session.Registry

/-!
A registry together with the registrations that it has given out, over any history of calls. A
registration that is given back takes out the session that has its id then. This is its own for as
long as no id is registered while an earlier registration of it is still held: `removes_own_iff`.
`newer_session_removed` shows what happens otherwise.
-/

namespace EditionGateway

/-- What may be done with a registry. Its registrations are numbered in the order in which they have
been given out; they are given back by a call or by being dropped. -/
inductive Deed
  | register (h : SessionHandle)
  | release (k : Nat)
  | drop (k : Nat)
  | deregister (id : SessionId)
  | beginShutdown

/-- The registration that is given back. -/
def Deed.returned? : Deed → Option Nat
  | release k => some k
  | drop k => some k
  | _ => none

/-- A registry and the registrations that it has given out, each with the handle it was given for.
`source` tells by which of them the session of an id has come into the registry. -/
structure Custody where
  registry : Registry := {}
  given : List (SessionHandle × Registration) := []
  source : SessionId → Option Nat := fun _ => none

namespace Custody

/-- Where the sessions have come from that are still there in the registry `r`. -/
def kept (s : Custody) (r : Registry) (id : SessionId) : Option Nat :=
  if r.holds id then s.source id else none

def register (s : Custody) (h : SessionHandle) : Custody :=
  match s.registry.register h with
  | (.ok g, r) =>
    { registry := r
      given := s.given ++ [(h, g)]
      source := fun id => if id = h.id then some s.given.length else s.source id }
  | (.error _, r) => { s with registry := r }

def giveBack (s : Custody) (k : Nat) : Custody :=
  match s.given[k]? with
  | none => s
  | some (h, g) =>
    let (g, r) := s.registry.release g
    { registry := r, given := s.given.set k (h, g), source := s.kept r }

def deregister (s : Custody) (id : SessionId) : Custody :=
  let r := (s.registry.deregister id).2
  { s with registry := r, source := s.kept r }

def next (s : Custody) : Deed → Custody
  | .register h => s.register h
  | .release k => s.giveBack k
  | .drop k => s.giveBack k
  | .deregister id => s.deregister id
  | .beginShutdown => { s with registry := s.registry.beginShutdown }

def after (s : Custody) (ds : List Deed) : Custody := ds.foldl next s

/-- The session that has come with registration `j` is taken out of the registry. -/
def Removes (s : Custody) (d : Deed) (j : Nat) : Prop :=
  ∃ id, s.source id = some j ∧ (s.next d).source id ≠ some j

/-- The handle that a registration was given for. -/
def handle? (s : Custody) (k : Nat) : Option SessionHandle := s.given[k]?.map (·.1)

/-- Registration `k` was given for the handle `h` and has not been given back. -/
def Holds (s : Custody) (k : Nat) (h : SessionHandle) : Prop :=
  ∃ g, s.given[k]? = some (h, g) ∧ g.released = false

/-- No registration that is given back takes out a session that has come with another one. -/
def OwnOnly (s : Custody) : Prop :=
  ∀ d k j, d.returned? = some k → s.Removes d j → j = k

/-- The deed does not register an id anew for which an earlier registration is still held. -/
def isTidyNext (s : Custody) : Deed → Bool
  | .register h =>
    !((s.registry.register h).1.toBool && s.given.any fun e => e.1.id = h.id && !e.2.released)
  | _ => true

def isTidy (s : Custody) : List Deed → Bool
  | [] => true
  | d :: ds => s.isTidyNext d && (s.next d).isTidy ds

variable {s t : Custody} {d : Deed}

@[simp] theorem after_nil (s : Custody) : s.after [] = s := rfl

@[simp] theorem after_cons (s : Custody) (d : Deed) (ds : List Deed) :
    s.after (d :: ds) = (s.next d).after ds := rfl

theorem after_append (s : Custody) (ds es : List Deed) :
    s.after (ds ++ es) = (s.after ds).after es := List.foldl_append

theorem next_of_returned {d : Deed} {k : Nat} (h : d.returned? = some k) :
    s.next d = s.giveBack k := by
  cases d with
  | release _ => cases h; rfl
  | drop _ => cases h; rfl
  | register _ => cases h
  | deregister _ => cases h
  | beginShutdown => cases h

/-- Every session in the registry has come with a registration for its id, which is still held. -/
structure Sound (s : Custody) : Prop where
  sessions : ∀ id, s.registry.get? id = (s.source id).bind s.handle?
  own : ∀ (id : SessionId) (k : Nat), s.source id = some k → ∃ h, s.Holds k h ∧ h.id = id
  ids : ∀ (k : Nat) (h : SessionHandle) (g : Registration), s.given[k]? = some (h, g) → g.id = h.id

/-- What one deed can do to the sessions and the registrations. -/
inductive Change (s : Custody) (d : Deed) (t : Custody) : Prop
  | none (sessions : t.registry.sessions = s.registry.sessions) (given : t.given = s.given)
      (source : t.source = s.source)
  | added (h : SessionHandle) (g : Registration) (e : RegistryEntry) (deed : d = .register h)
      (taken : (s.registry.register h).1.toBool = true) (id : g.id = h.id)
      (held : g.released = false) (handle : e.handle = h)
      (sessions : t.registry.sessions = s.registry.sessions.insert h.id e)
      (given : t.given = s.given ++ [(h, g)])
      (source : ∀ id, t.source id = if id = h.id then some s.given.length else s.source id)
  | removed (x : SessionId) (sessions : t.registry.sessions = s.registry.sessions.erase x)
      (given : t.given = s.given ∨ ∃ k h g, s.given[k]? = some (h, g) ∧ h.id = x ∧
        g.released = false ∧ t.given = s.given.set k (h, { g with released := true }))
      (source : ∀ id, t.source id = if id = x then Option.none else s.source id)

theorem change_register (s : Custody) (h : SessionHandle) : s.Change (.register h) (s.register h) := by
  rcases s.registry.register_cases h with ⟨-, heq⟩ | ⟨e, -, heq⟩
  · simp only [register, heq]
    exact .added h _ _ rfl (by rw [heq]; rfl) rfl rfl rfl rfl rfl fun _ => rfl
  · simp only [register, heq]
    exact .none rfl rfl rfl

theorem giveBack_held {k : Nat} {h : SessionHandle} {g : Registration}
    (hk : s.given[k]? = some (h, g)) (hg : g.released = false) :
    s.giveBack k =
      { registry := (s.registry.deregister g.id).2
        given := s.given.set k (h, { g with released := true })
        source := s.kept (s.registry.deregister g.id).2 } := by
  simp only [giveBack, hk, Registry.release, if_neg (Bool.eq_false_iff.mp hg)]

theorem exists_given {k : Nat} (hk : k < s.given.length) : ∃ h g, s.given[k]? = some (h, g) :=
  ⟨_, _, List.getElem?_eq_getElem hk⟩

theorem register_source {h : SessionHandle} (htaken : (s.registry.register h).1.toBool = true) :
    (s.register h).source h.id = some s.given.length := by
  rcases s.registry.register_cases h with ⟨-, heq⟩ | ⟨e, -, heq⟩
  · simp only [register, heq, if_pos]
  · rw [heq] at htaken
    cases htaken

namespace Sound

theorem start : Sound {} where
  sessions _ := rfl
  own := nofun
  ids := nofun

theorem holds_eq (hs : s.Sound) (id : SessionId) : s.registry.holds id = (s.source id).isSome := by
  have hget : s.registry.holds id = (s.registry.get? id).isSome := by
    rw [Registry.holds, Registry.get?, Option.isSome_map]
    rfl
  rw [hget, hs.sessions]
  cases hk : s.source id with
  | none => rfl
  | some k =>
    obtain ⟨h, ⟨g, hg, -⟩, -⟩ := hs.own id k hk
    rw [Option.bind_some, handle?, hg]
    rfl

/-- Where one session is taken out, the others are kept. -/
theorem kept_erase (hs : s.Sound) {r : Registry} {x : SessionId}
    (hr : r.sessions = s.registry.sessions.erase x) (id : SessionId) :
    s.kept r id = if id = x then none else s.source id := by
  have hholds : r.holds id = (decide (id ≠ x) && (s.source id).isSome) := by
    rw [Registry.holds, hr, Table.contains_erase, ← hs.holds_eq]
    rfl
  rw [kept, hholds]
  by_cases hid : id = x
  · simp [hid]
  · cases hk : s.source id <;> simp [hid]

theorem kept_self (hs : s.Sound) : s.kept s.registry = s.source := by
  funext id
  rw [kept, hs.holds_eq]
  cases s.source id <;> rfl

/-- A registration that has been given back does nothing any more. -/
theorem giveBack_released (hs : s.Sound) {k : Nat} {h : SessionHandle} {g : Registration}
    (hk : s.given[k]? = some (h, g)) (hg : g.released = true) : s.giveBack k = s := by
  have hset : s.given.set k (h, g) = s.given := by
    obtain ⟨hlt, heq⟩ := List.getElem?_eq_some_iff.mp hk
    rw [← heq, List.set_getElem_self]
  simp only [giveBack, hk, Registry.release, if_pos hg, hset, hs.kept_self]

theorem change_giveBack (hs : s.Sound) (d : Deed) (k : Nat) : s.Change d (s.giveBack k) := by
  cases hk : s.given[k]? with
  | none =>
    rw [giveBack, hk]
    exact .none rfl rfl rfl
  | some e =>
    obtain ⟨h, g⟩ := e
    cases hg : g.released with
    | true =>
      rw [hs.giveBack_released hk hg]
      exact .none rfl rfl rfl
    | false =>
      rw [giveBack_held hk hg]
      have hr := s.registry.deregister_sessions g.id
      exact .removed g.id hr (.inr ⟨k, h, g, hk, (hs.ids k h g hk).symm, hg, rfl⟩) (hs.kept_erase hr)

theorem change_next (hs : s.Sound) (d : Deed) : s.Change d (s.next d) := by
  cases d with
  | register h => exact s.change_register h
  | release k => exact hs.change_giveBack _ k
  | drop k => exact hs.change_giveBack _ k
  | deregister id =>
    have hr := s.registry.deregister_sessions id
    exact .removed id hr (.inl rfl) (hs.kept_erase hr)
  | beginShutdown => exact .none rfl rfl rfl

theorem lt_of_source (hs : s.Sound) {id : SessionId} {k : Nat} (hk : s.source id = some k) :
    k < s.given.length := by
  obtain ⟨h, ⟨g, hg, -⟩, -⟩ := hs.own id k hk
  exact (List.getElem?_eq_some_iff.mp hg).1

/-- A session has come with a registration for its own id. -/
theorem source_injective (hs : s.Sound) {x y : SessionId} {k : Nat} (hx : s.source x = some k)
    (hy : s.source y = some k) : x = y := by
  obtain ⟨h, ⟨g, hg, -⟩, rfl⟩ := hs.own x k hx
  obtain ⟨h', ⟨g', hg', -⟩, rfl⟩ := hs.own y k hy
  rw [hg] at hg'
  cases hg'
  rfl

end Sound

namespace Change

theorem length_le (c : s.Change d t) : s.given.length ≤ t.given.length := by
  cases c with
  | none _ given _ => exact Nat.le_of_eq (congrArg List.length given).symm
  | added h g _ _ _ _ _ _ _ given _ =>
    rw [given, List.length_append]
    omega
  | removed _ _ given _ =>
    rcases given with given | ⟨k, h, g, -, -, -, given⟩
    · exact Nat.le_of_eq (congrArg List.length given).symm
    · have hlen := congrArg List.length given
      rw [List.length_set] at hlen
      exact Nat.le_of_eq hlen.symm

/-- A registration stays what it is, unless it is given back and its session goes. -/
theorem given_of (c : s.Change d t) {k : Nat} {h : SessionHandle} {g : Registration}
    (hk : s.given[k]? = some (h, g)) :
    ∃ g', t.given[k]? = some (h, g') ∧
      (g' = g ∨ g' = { g with released := true } ∧ t.source h.id = Option.none) := by
  cases c with
  | none _ given _ => exact ⟨g, given ▸ hk, .inl rfl⟩
  | added _ _ _ _ _ _ _ _ _ given _ =>
    refine ⟨g, ?_, .inl rfl⟩
    rw [given, List.getElem?_append_left (List.getElem?_eq_some_iff.mp hk).1, hk]
  | removed x _ given source =>
    rcases given with given | ⟨i, h', g', hi, hx, -, given⟩
    · exact ⟨g, given ▸ hk, .inl rfl⟩
    · by_cases hik : i = k
      · subst hik
        rw [hi] at hk
        cases hk
        refine ⟨{ g with released := true }, ?_, .inr ⟨rfl, ?_⟩⟩
        · rw [given, List.getElem?_set_self (List.getElem?_eq_some_iff.mp hi).1]
        · rw [source, if_pos hx]
      · refine ⟨g, ?_, .inl rfl⟩
        rw [given, List.getElem?_set_ne hik, hk]

/-- At most one registration is new, and its session with it. -/
theorem given_new (c : s.Change d t) {k : Nat} {h : SessionHandle} {g : Registration}
    (hk : t.given[k]? = some (h, g)) (hle : s.given.length ≤ k) :
    k = s.given.length ∧ g.id = h.id ∧ d = .register h ∧
      (s.registry.register h).1.toBool = true := by
  have hlt := (List.getElem?_eq_some_iff.mp hk).1
  cases c with
  | none _ given _ => rw [given] at hlt; omega
  | added h' g' _ deed taken id _ _ _ given _ =>
    rw [given, List.length_append, List.length_singleton] at hlt
    have heq : k = s.given.length := by omega
    subst heq
    rw [given, List.getElem?_concat_length] at hk
    cases hk
    exact ⟨rfl, id, deed, taken⟩
  | removed _ _ given _ =>
    rcases given with given | ⟨i, h', g', -, -, -, given⟩
    · rw [given] at hlt; omega
    · rw [given, List.length_set] at hlt; omega

theorem handle?_eq (c : s.Change d t) {k : Nat} (hk : k < s.given.length) :
    t.handle? k = s.handle? k := by
  obtain ⟨h, g, hg⟩ := exists_given hk
  obtain ⟨g', hg', -⟩ := c.given_of hg
  rw [handle?, handle?, hg, hg']
  rfl

/-- A registration stays held for as long as its session is there. -/
theorem holds_source (c : s.Change d t) {k : Nat} {h : SessionHandle} (hk : s.Holds k h)
    (hsource : t.source h.id = some k) : t.Holds k h := by
  obtain ⟨g, hg, hheld⟩ := hk
  obtain ⟨g', hg', rfl | ⟨-, hgone⟩⟩ := c.given_of hg
  · exact ⟨g', hg', hheld⟩
  · rw [hgone] at hsource
    cases hsource

/-- A registration that is held was held before, or is the new one. -/
theorem holds_of (c : s.Change d t) {k : Nat} {h : SessionHandle} (hk : t.Holds k h) :
    s.Holds k h ∨
      k = s.given.length ∧ d = .register h ∧ (s.registry.register h).1.toBool = true := by
  obtain ⟨g', hg', hheld⟩ := hk
  by_cases hlt : k < s.given.length
  · obtain ⟨x, g, hg⟩ := exists_given hlt
    obtain ⟨_, hgt, hcase⟩ := c.given_of hg
    rw [hg'] at hgt
    cases hgt
    rcases hcase with rfl | ⟨rfl, -⟩
    · exact .inl ⟨g', hg, hheld⟩
    · cases hheld
  · obtain ⟨heq, -, hnew⟩ := c.given_new hg' (Nat.le_of_not_lt hlt)
    exact .inr ⟨heq, hnew⟩

/-- Where a session comes from does not change while it is there. -/
theorem source_of (c : s.Change d t) (id : SessionId) :
    t.source id = s.source id ∨ t.source id = Option.none ∨
      t.source id = some s.given.length ∧ ∃ h, t.Holds s.given.length h ∧ h.id = id := by
  cases c with
  | none _ _ source => exact .inl (congrFun source id)
  | added h g _ _ _ _ held _ _ given source =>
    rw [source]
    split
    · next hid =>
      subst hid
      refine .inr (.inr ⟨rfl, h, ⟨g, ?_, held⟩, rfl⟩)
      rw [given, List.getElem?_concat_length]
    · exact .inl rfl
  | removed x _ _ source =>
    rw [source]
    split
    · exact .inr (.inl rfl)
    · exact .inl rfl

theorem get?_eq (c : s.Change d t) (hs : s.Sound) (id : SessionId) :
    t.registry.get? id = (t.source id).bind t.handle? := by
  -- A session that stays has the handle that it had.
  have hstays : (s.source id).bind t.handle? = (s.source id).bind s.handle? := by
    cases hk : s.source id with
    | none => rfl
    | some k => exact c.handle?_eq (hs.lt_of_source hk)
  have hold := hs.sessions id
  rw [Registry.get?] at hold
  rw [Registry.get?]
  cases c with
  | none sessions _ source => rw [sessions, source, hstays, hold]
  | added h g e _ _ _ _ handle sessions given source =>
    rw [sessions, Table.get?_insert, source]
    split
    · rw [Option.map_some, Option.bind_some, handle?, given, List.getElem?_concat_length, handle]
      rfl
    · rw [hstays, hold]
  | removed x sessions _ source =>
    rw [sessions, Table.get?_erase, source]
    split
    · rfl
    · rw [hstays, hold]

end Change

namespace Sound

theorem of_change (hs : s.Sound) (c : s.Change d t) : t.Sound where
  sessions := c.get?_eq hs
  own id k hk := by
    rcases c.source_of id with heq | heq | ⟨heq, hnew⟩
    · obtain ⟨h, hheld, rfl⟩ := hs.own id k (heq ▸ hk)
      exact ⟨h, c.holds_source hheld hk, rfl⟩
    · rw [heq] at hk
      cases hk
    · rw [heq] at hk
      cases hk
      exact hnew
  ids k h g hk := by
    by_cases hlt : k < s.given.length
    · obtain ⟨x, g₀, hg⟩ := exists_given hlt
      have hid := hs.ids k x g₀ hg
      obtain ⟨_, hgt, hcase⟩ := c.given_of hg
      rw [hk] at hgt
      cases hgt
      rcases hcase with rfl | ⟨rfl, -⟩
      · exact hid
      · exact hid
    · exact (c.given_new hk (Nat.le_of_not_lt hlt)).2.1

theorem next (hs : s.Sound) (d : Deed) : (s.next d).Sound := hs.of_change (hs.change_next d)

/-- What every deed keeps is kept through a history. -/
theorem after_induction {p : Custody → Prop} (hs : s.Sound) (h : p s)
    (step : ∀ (t : Custody) (d : Deed), t.Sound → p t → p (t.next d)) (ds : List Deed) :
    p (s.after ds) := by
  induction ds generalizing s with
  | nil => exact h
  | cons d ds ih => exact ih (hs.next d) (step s d hs h)

theorem after (hs : s.Sound) (ds : List Deed) : (s.after ds).Sound :=
  hs.after_induction hs (fun _ d ht _ => ht.next d) ds

theorem giveBack_source (hs : s.Sound) {k : Nat} {h : SessionHandle} (hk : s.Holds k h)
    (id : SessionId) : (s.giveBack k).source id = if id = h.id then none else s.source id := by
  obtain ⟨g, hg, hheld⟩ := hk
  rw [giveBack_held hg hheld, ← hs.ids k h g hg]
  exact hs.kept_erase (s.registry.deregister_sessions g.id) id

/-- A registration that is given back takes out the session that has its id, if it is still held. -/
theorem removes_iff (hs : s.Sound) {k : Nat} (hd : d.returned? = some k) (j : Nat) :
    s.Removes d j ↔ ∃ h, s.Holds k h ∧ s.source h.id = some j := by
  rw [Removes, next_of_returned hd]
  constructor
  · intro ⟨id, hid, hgone⟩
    cases hk : s.given[k]? with
    | none =>
      rw [giveBack, hk] at hgone
      exact absurd hid hgone
    | some e =>
      obtain ⟨h, g⟩ := e
      cases hg : g.released with
      | true =>
        rw [hs.giveBack_released hk hg] at hgone
        exact absurd hid hgone
      | false =>
        rw [hs.giveBack_source ⟨g, hk, hg⟩] at hgone
        split at hgone
        · next heq => exact ⟨h, ⟨g, hk, hg⟩, heq ▸ hid⟩
        · exact absurd hid hgone
  · intro ⟨h, hk, hj⟩
    refine ⟨h.id, hj, ?_⟩
    rw [hs.giveBack_source hk, if_pos rfl]
    exact nofun

end Sound

/-- Registration `k` has been given back. -/
def Returned (s : Custody) (k : Nat) : Prop := ∃ h g, s.given[k]? = some (h, g) ∧ g.released = true

namespace Returned

variable {k : Nat}

theorem giveBack (hs : s.Sound) (hk : k < s.given.length) : (s.giveBack k).Returned k := by
  obtain ⟨h, g, hget⟩ := exists_given hk
  cases hg : g.released with
  | true =>
    rw [hs.giveBack_released hget hg]
    exact ⟨h, g, hget, hg⟩
  | false =>
    rw [giveBack_held hget hg]
    exact ⟨h, _, List.getElem?_set_self hk, rfl⟩

theorem next (hk : s.Returned k) (hs : s.Sound) (d : Deed) : (s.next d).Returned k := by
  obtain ⟨h, g, hg, hr⟩ := hk
  obtain ⟨g', hg', rfl | ⟨rfl, -⟩⟩ := (hs.change_next d).given_of hg
  · exact ⟨h, g', hg', hr⟩
  · exact ⟨h, _, hg', rfl⟩

theorem after (hk : s.Returned k) (hs : s.Sound) (ds : List Deed) : (s.after ds).Returned k :=
  hs.after_induction (p := (·.Returned k)) hk (fun _ d ht h => h.next ht d) ds

theorem next_eq (hk : s.Returned k) (hs : s.Sound) (hd : d.returned? = some k) : s.next d = s := by
  obtain ⟨h, g, hg, hr⟩ := hk
  rw [next_of_returned hd, hs.giveBack_released hg hr]

end Returned

/-- The session that has come with registration `j` is not in the registry any more. -/
structure Gone (s : Custody) (j : Nat) : Prop where
  given : j < s.given.length
  absent : ∀ id, s.source id ≠ some j

namespace Gone

variable {j : Nat}

/-- No later registration has the number of an earlier one. -/
theorem of_next (hs : s.Sound) (hj : j < s.given.length)
    (h : ∀ id, s.source id = some j → (s.next d).source id ≠ some j) : (s.next d).Gone j where
  given := Nat.lt_of_lt_of_le hj (hs.change_next d).length_le
  absent id hid := by
    rcases (hs.change_next d).source_of id with heq | heq | ⟨heq, -⟩
    · exact h id (heq ▸ hid) hid
    · rw [heq] at hid
      cases hid
    · rw [heq, Option.some_inj] at hid
      omega

theorem of_removes (hs : s.Sound) (h : s.Removes d j) : (s.next d).Gone j := by
  obtain ⟨id, hid, hgone⟩ := h
  apply of_next hs (hs.lt_of_source hid)
  intro x hx
  rw [hs.source_injective hx hid]
  exact hgone

theorem next (h : s.Gone j) (hs : s.Sound) (d : Deed) : (s.next d).Gone j :=
  of_next hs h.given fun id hid => absurd hid (h.absent id)

theorem after (h : s.Gone j) (hs : s.Sound) (ds : List Deed) : (s.after ds).Gone j :=
  hs.after_induction (p := (·.Gone j)) h (fun _ d ht h => h.next ht d) ds

theorem not_removes (h : s.Gone j) (d : Deed) : ¬s.Removes d j :=
  fun ⟨id, hid, _⟩ => h.absent id hid

end Gone

/-- Of every id at most one registration is held. -/
def Sole (s : Custody) : Prop :=
  ∀ (k j : Nat) (h h' : SessionHandle), s.Holds k h → s.Holds j h' → h.id = h'.id → k = j

theorem Sole.ownOnly (h : s.Sole) (hs : s.Sound) : s.OwnOnly := by
  intro d k j hd hj
  obtain ⟨x, hx, hsource⟩ := (hs.removes_iff hd j).mp hj
  obtain ⟨y, hy, heq⟩ := hs.own x.id j hsource
  exact h j k y x hy hx heq

theorem isTidyNext_eq_false_iff (s : Custody) (d : Deed) :
    s.isTidyNext d = false ↔ ∃ h k h', d = .register h ∧ (s.registry.register h).1.toBool = true ∧
      s.Holds k h' ∧ h'.id = h.id := by
  cases d with
  | register h =>
    rw [isTidyNext, Bool.not_eq_false', Bool.and_eq_true, List.any_eq_true]
    constructor
    · intro ⟨htaken, ⟨h', g⟩, hmem, he⟩
      obtain ⟨k, hk⟩ := List.mem_iff_getElem?.mp hmem
      simp only [Bool.and_eq_true, decide_eq_true_eq, Bool.not_eq_true'] at he
      exact ⟨h, k, h', rfl, htaken, ⟨g, hk, he.2⟩, he.1⟩
    · intro ⟨_, k, h', heq, htaken, ⟨g, hk, hheld⟩, hid⟩
      cases heq
      refine ⟨htaken, (h', g), List.mem_iff_getElem?.mpr ⟨k, hk⟩, ?_⟩
      simp [hid, hheld]
  | release _ => simp [isTidyNext]
  | drop _ => simp [isTidyNext]
  | deregister _ => simp [isTidyNext]
  | beginShutdown => simp [isTidyNext]

theorem Sole.next (h : s.Sole) (hs : s.Sound) (ht : s.isTidyNext d = true) : (s.next d).Sole := by
  have hnew : ∀ (x y : SessionHandle) (k : Nat), d = .register x →
      (s.registry.register x).1.toBool = true → s.Holds k y → y.id ≠ x.id := by
    intro x y k hd htaken hk hid
    have hfalse := (s.isTidyNext_eq_false_iff d).mpr ⟨x, k, y, hd, htaken, hk, hid⟩
    rw [ht] at hfalse
    cases hfalse
  intro k j x y hk hj hid
  have c := hs.change_next d
  rcases c.holds_of hk with hk | ⟨hkn, hdx, htx⟩
  · rcases c.holds_of hj with hj | ⟨-, hdy, hty⟩
    · exact h k j x y hk hj hid
    · exact absurd hid (hnew y x k hdy hty hk)
  · rcases c.holds_of hj with hj | ⟨hjn, -⟩
    · exact absurd hid.symm (hnew x y j hdx htx hj)
    · rw [hkn, hjn]

/-- Where an id is registered anew, a registration of it that is still held takes out the new
session. -/
theorem not_ownOnly_of_not_tidy (hs : s.Sound) (ht : s.isTidyNext d = false) :
    ¬(s.next d).OwnOnly := by
  obtain ⟨h, k, h', rfl, htaken, ⟨g, hk, hheld⟩, hid⟩ := (s.isTidyNext_eq_false_iff d).mp ht
  have hlt := (List.getElem?_eq_some_iff.mp hk).1
  have hsource : (s.next (.register h)).source h'.id = some s.given.length := by
    rw [hid]
    exact register_source htaken
  -- It would not be held any more only if its session had gone, but the id has one.
  have hstill : (s.next (.register h)).Holds k h' := by
    obtain ⟨g', hg', rfl | ⟨-, hgone⟩⟩ := (hs.change_next _).given_of hk
    · exact ⟨g', hg', hheld⟩
    · rw [hgone] at hsource
      cases hsource
  intro hown
  have hd : (Deed.release k).returned? = some k := rfl
  have hremoves := ((hs.next (.register h)).removes_iff hd _).mpr ⟨h', hstill, hsource⟩
  have heq := hown (.release k) k _ hd hremoves
  omega

theorem isTidy_iff (hs : s.Sound) (h : s.Sole) (ds : List Deed) :
    s.isTidy ds = true ↔ ∀ p, p <+: ds → (s.after p).OwnOnly := by
  -- A beginning is empty, or goes on after the first deed, where again no id is held twice.
  induction ds generalizing s with
  | nil =>
    refine ⟨fun _ p hp => ?_, fun _ => rfl⟩
    rw [List.prefix_nil.mp hp]
    exact h.ownOnly hs
  | cons d ds ih =>
    rw [isTidy, Bool.and_eq_true]
    constructor
    · intro ⟨hd, hds⟩ p hp
      rcases List.prefix_cons_iff.mp hp with rfl | ⟨q, rfl, hq⟩
      · exact h.ownOnly hs
      · exact (ih (hs.next d) (h.next hs hd)).mp hds q hq
    · intro hown
      have hd : s.isTidyNext d = true := by
        cases hd : s.isTidyNext d with
        | true => rfl
        | false =>
          have hfirst := hown [d] (List.cons_prefix_cons.mpr ⟨rfl, List.nil_prefix⟩)
          exact absurd hfirst (not_ownOnly_of_not_tidy hs hd)
      refine ⟨hd, (ih (hs.next d) (h.next hs hd)).mpr fun q hq => ?_⟩
      exact hown (d :: q) (List.cons_prefix_cons.mpr ⟨rfl, hq⟩)

theorem Sole.start : Sole {} := by
  intro k j h h' ⟨g, hg, _⟩
  cases hg

/-- For every history: registrations take out nothing but their own sessions, now and at every
earlier time, exactly if no id has been registered while an earlier registration of it was held. What
a registration takes out when it is given back is the session that has its id then, and only if it
has not been given back before; the second time nothing changes at all. Every session is taken out
at most once. The registry has the handles for which the registrations were given that its sessions
have come with. -/
theorem removes_own_iff (ds : List Deed) :
    (isTidy {} ds = true ↔ ∀ p, p <+: ds → (after {} p).OwnOnly) ∧
    (∀ d k j, d.returned? = some k →
      ((after {} ds).Removes d j ↔
        ∃ h, (after {} ds).Holds k h ∧ (after {} ds).source h.id = some j)) ∧
    (∀ d e k es, d.returned? = some k → e.returned? = some k → k < (after {} ds).given.length →
      (after {} (ds ++ d :: es)).next e = after {} (ds ++ d :: es)) ∧
    (∀ d e j es, (after {} ds).Removes d j → ¬(after {} (ds ++ d :: es)).Removes e j) ∧
    ∀ id, (after {} ds).registry.get? id =
      ((after {} ds).source id).bind (after {} ds).handle? := by
  have hs : (after {} ds).Sound := Sound.start.after ds
  refine ⟨isTidy_iff .start .start ds, fun d k j hd => hs.removes_iff hd j, ?_, ?_, hs.sessions⟩
  · intro d e k es hd he hk
    rw [after_append, after_cons]
    have hreturned : ((after {} ds).next d).Returned k := by
      rw [next_of_returned hd]
      exact Returned.giveBack hs hk
    exact (hreturned.after (hs.next d) es).next_eq ((hs.next d).after es) he
  · intro d e j es hj
    rw [after_append, after_cons]
    exact ((Gone.of_removes hs hj).after (hs.next d) es).not_removes e

def joined (id : UInt64) (name : String) : SessionHandle := ⟨⟨id⟩, name, "127.0.0.1:19132", 0⟩

/-- An id is registered again after its registration has been given back. Dropping that one does
nothing to the new session. -/
theorem removes_own_of_two :
    let ds := [.register (joined 1 "a"), .release 0, .register (joined 1 "b")]
    (after {} ds).OwnOnly ∧ (after {} ds).next (.drop 0) = after {} ds ∧
      (after {} ds).Removes (.drop 1) 1 := by
  intro ds
  obtain ⟨htidy, hremoves, hsecond, -, -⟩ := removes_own_iff ds
  refine ⟨htidy.mp (by decide) ds (List.prefix_refl ds), ?_, ?_⟩
  · exact (removes_own_iff [.register (joined 1 "a")]).2.2.1 (.release 0) (.drop 0) 0
      [.register (joined 1 "b")] rfl rfl (by decide)
  · exact (hremoves (.drop 1) 1 1 rfl).mpr ⟨joined 1 "b", ⟨_, rfl, rfl⟩, by decide⟩

/-- An id is registered again after its session has been taken out otherwise. The first registration,
when it is given back, takes out the new session. -/
theorem newer_session_removed :
    let s := after {} [.register (joined 1 "a"), .deregister ⟨1⟩, .register (joined 1 "b")]
    s.Holds 0 (joined 1 "a") ∧ s.source ⟨1⟩ = some 1 ∧ s.registry.get? ⟨1⟩ = some (joined 1 "b") ∧
      s.Removes (.release 0) 1 ∧ (s.next (.release 0)).registry.get? ⟨1⟩ = none := by
  intro s
  exact ⟨⟨_, rfl, rfl⟩, by decide, by decide, ⟨⟨1⟩, by decide, by decide⟩, by decide⟩

end Custody
end EditionGateway
