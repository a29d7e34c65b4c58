import EditionGateway.Proofs.Session.Registry

/-!
Shutting down a registry that others still use. What a caller does between two turns of others is one
step, and the steps of all callers come in any order. Whoever has shut the registry down leaves it
empty for good, and nobody goes on waiting for sessions that are gone.
-/

namespace EditionGateway

/-- A bell that callers, known by their numbers, wait for. -/
structure Bell (β : Type) where
  silent : β
  /-- From now on a caller waits for the bell. -/
  enable : Nat → β → β
  ring : β → β
  isEnabled : Nat → β → Bool
  isWoken : Nat → β → Bool

/-- A ring wakes everyone who has been enabled before, for as long as he is not enabled anew. -/
structure Bell.Reliable {β : Type} (b : Bell β) : Prop where
  enabled_self : ∀ i s, b.isEnabled i (b.enable i s) = true
  enabled_other : ∀ {i j} s, i ≠ j → b.isEnabled i s = true → b.isEnabled i (b.enable j s) = true
  enabled_ring : ∀ i s, b.isEnabled i s = true → b.isEnabled i (b.ring s) = true
  woken_other : ∀ {i j} s, i ≠ j → b.isWoken i (b.enable j s) = b.isWoken i s
  woken_ring : ∀ i s, b.isEnabled i s = true → b.isWoken i (b.ring s) = true

/-- A bell that knows of everyone who has been enabled whether it has rung since. -/
def Bell.plain : Bell (Table Nat Bool) where
  silent := []
  enable i s := s.insert i false
  ring s := s.map fun e => (e.1, true)
  isEnabled i s := s.contains i
  isWoken i s := s.get? i = some true

theorem Bell.plain_ring (i : Nat) (s : Table Nat Bool) :
    Table.get? (Bell.plain.ring s) i = (s.get? i).map fun _ => true := by
  induction s with
  | nil => rfl
  | cons e s ih =>
    have hcons : Bell.plain.ring (e :: s) = (e.1, true) :: Bell.plain.ring s := rfl
    rw [hcons, Table.get?_cons, Table.get?_cons, ih]
    split <;> rfl

theorem Bell.plain_reliable : Bell.plain.Reliable where
  enabled_self i s := by simp [Bell.plain, Table.contains_insert]
  enabled_other s hij h := by
    simp only [Bell.plain] at h ⊢
    rw [Table.contains_insert, h, Bool.or_true]
  enabled_ring i s h := by
    change Table.contains (Bell.plain.ring s) i = true
    rw [Table.contains, Bell.plain_ring, Option.isSome_map]
    exact h
  woken_other s hij := by simp only [Bell.plain, Table.get?_insert, if_neg hij]
  woken_ring i s h := by
    change decide (Table.get? (Bell.plain.ring s) i = some true) = true
    obtain ⟨v, hv⟩ := Option.isSome_iff_exists.mp (show (s.get? i).isSome = true from h)
    rw [Bell.plain_ring, hv]
    rfl

/-- How far a caller has come with what it is doing. -/
inductive Call
  | idle
  /-- It has taken the last session out, and is going to ring. -/
  | departing
  /-- It shuts down, and has said so. -/
  | announced
  /-- It waits for the bell, and is going to look whether there are sessions. -/
  | enabled
  /-- It has seen a session, and is going to park. -/
  | turnedAway
  | parked
deriving DecidableEq, Repr

namespace Call

/-- It has seen that the registry is not empty, and does not go on before it is woken. -/
def isHeld : Call → Bool
  | .turnedAway => true
  | .parked => true
  | _ => false

def isEnabled (c : Call) : Bool := c = .enabled || c.isHeld

/-- It is shutting the registry down. -/
def isClosing (c : Call) : Bool := c = .announced || c.isEnabled

end Call

/-- One step of a caller. -/
inductive Turn
  | register (h : SessionHandle)
  | deregister (id : SessionId)
  | ring
  | announce
  | enable
  | check
  | park
  | wake
deriving Repr

/-- A registry with all who call it; `returned` of their shutdowns are over. -/
structure Barrier (β : Type) where
  registry : Registry := {}
  bell : β
  calls : Nat → Call := fun _ => .idle
  returned : Nat := 0

namespace Barrier

variable {β : Type}

def start (b : Bell β) : Barrier β := { bell := b.silent }

def put (s : Barrier β) (i : Nat) (c : Call) : Barrier β :=
  { s with calls := fun j => if j = i then c else s.calls j }

/-- A caller takes a turn. A turn that it cannot take changes nothing. -/
def next (b : Bell β) (s : Barrier β) (i : Nat) (t : Turn) : Barrier β :=
  match s.calls i, t with
  | .idle, .register h => { s with registry := (s.registry.register h).2 }
  | .idle, .deregister id =>
    let (removed, registry) := s.registry.deregister id
    if removed ∧ registry.isEmpty then { s with registry }.put i .departing else { s with registry }
  | .departing, .ring => { s with bell := b.ring s.bell }.put i .idle
  | .idle, .announce => { s with registry := s.registry.beginShutdown }.put i .announced
  | .announced, .enable => { s with bell := b.enable i s.bell }.put i .enabled
  | .enabled, .check =>
    if s.registry.isEmpty then { s with returned := s.returned + 1 }.put i .idle
    else s.put i .turnedAway
  | .turnedAway, .park => s.put i .parked
  | .parked, .wake => if b.isWoken i s.bell then s.put i .announced else s
  | _, _ => s

/-- What a turn of a caller makes of a barrier. -/
inductive Taken (b : Bell β) (s : Barrier β) (i : Nat) : Barrier β → Prop
  | nothing : Taken b s i s
  | register (h : SessionHandle) (call : s.calls i = .idle) :
    Taken b s i { s with registry := (s.registry.register h).2 }
  | depart (id : SessionId) (call : s.calls i = .idle) :
    Taken b s i (({ s with registry := (s.registry.deregister id).2 } : Barrier β).put i .departing)
  | deregister (id : SessionId) (call : s.calls i = .idle)
    (others : ¬ ((s.registry.deregister id).1 = true ∧ (s.registry.deregister id).2.isEmpty = true)) :
    Taken b s i { s with registry := (s.registry.deregister id).2 }
  | ring (call : s.calls i = .departing) :
    Taken b s i (({ s with bell := b.ring s.bell } : Barrier β).put i .idle)
  | announce (call : s.calls i = .idle) :
    Taken b s i (({ s with registry := s.registry.beginShutdown } : Barrier β).put i .announced)
  | enable (call : s.calls i = .announced) :
    Taken b s i (({ s with bell := b.enable i s.bell } : Barrier β).put i .enabled)
  | leave (call : s.calls i = .enabled) (empty : s.registry.isEmpty = true) :
    Taken b s i (({ s with returned := s.returned + 1 } : Barrier β).put i .idle)
  | turnAway (call : s.calls i = .enabled) (others : s.registry.isEmpty = false) :
    Taken b s i (s.put i .turnedAway)
  | park (call : s.calls i = .turnedAway) : Taken b s i (s.put i .parked)
  | wake (call : s.calls i = .parked) (woken : b.isWoken i s.bell = true) :
    Taken b s i (s.put i .announced)

theorem next_taken (b : Bell β) (s : Barrier β) (i : Nat) (t : Turn) :
    s.Taken b i (s.next b i t) := by
  unfold next
  split
  · next h hi => exact .register h hi
  · next id hi =>
    dsimp only
    split
    · exact .depart id hi
    · next hn => exact .deregister id hi hn
  · next hi => exact .ring hi
  · next hi => exact .announce hi
  · next hi => exact .enable hi
  · next hi =>
    split
    · next he => exact .leave hi he
    · next he => exact .turnAway hi (Bool.eq_false_iff.mpr he)
  · next hi => exact .park hi
  · next hi =>
    split
    · next hw => exact .wake hi hw
    · exact .nothing
  · exact .nothing

/-- After turns of callers. -/
def after (b : Bell β) (s : Barrier β) (ts : List (Nat × Turn)) : Barrier β :=
  ts.foldl (fun s t => s.next b t.1 t.2) s

@[simp] theorem after_nil (b : Bell β) (s : Barrier β) : s.after b [] = s := rfl

@[simp] theorem after_cons (b : Bell β) (s : Barrier β) (t : Nat × Turn) (ts : List (Nat × Turn)) :
    s.after b (t :: ts) = (s.next b t.1 t.2).after b ts := rfl

@[simp] theorem after_append (b : Bell β) (s : Barrier β) (ts us : List (Nat × Turn)) :
    s.after b (ts ++ us) = (s.after b ts).after b us :=
  List.foldl_append

@[simp] theorem put_registry (s : Barrier β) (i : Nat) (c : Call) : (s.put i c).registry = s.registry :=
  rfl

@[simp] theorem put_bell (s : Barrier β) (i : Nat) (c : Call) : (s.put i c).bell = s.bell := rfl

@[simp] theorem put_returned (s : Barrier β) (i : Nat) (c : Call) : (s.put i c).returned = s.returned :=
  rfl

@[simp] theorem put_calls_self (s : Barrier β) (i : Nat) (c : Call) : (s.put i c).calls i = c :=
  if_pos rfl

theorem put_calls_of_ne (s : Barrier β) {i j : Nat} (h : j ≠ i) (c : Call) :
    (s.put i c).calls j = s.calls j :=
  if_neg h

/-- What is not true of a caller that has just got on is true of another one. -/
theorem of_put {s : Barrier β} {i j : Nat} {c : Call} {p : Call → Bool} (hc : p c = false)
    (h : p ((s.put i c).calls j) = true) : p (s.calls j) = true := by
  by_cases hji : j = i
  · rw [hji, put_calls_self, hc] at h
    cases h
  · rwa [put_calls_of_ne s hji] at h

/-- What holds whatever the callers have done. -/
structure Sound (b : Bell β) (s : Barrier β) : Prop where
  closing : ∀ i, (s.calls i).isClosing = true → s.registry.shuttingDown = true
  enabled : ∀ i, (s.calls i).isEnabled = true → b.isEnabled i s.bell = true
  /-- Whoever is held is so by a session, or someone is going to ring for him. -/
  held : ∀ i, (s.calls i).isHeld = true → b.isWoken i s.bell = false →
    s.registry.isEmpty = false ∨ ∃ j, s.calls j = .departing
  returned : 0 < s.returned → s.registry.isDrained = true

theorem isDrained_iff (r : Registry) :
    r.isDrained = true ↔ r.shuttingDown = true ∧ r.isEmpty = true := by
  rw [Registry.isDrained, Bool.and_eq_true]

namespace Sound

variable {b : Bell β} {s t : Barrier β} {i : Nat}

theorem start (b : Bell β) : (Barrier.start b).Sound b where
  closing i hi := by cases hi
  enabled i hi := by cases hi
  held i hi := by cases hi
  returned hr := absurd hr (Nat.lt_irrefl 0)

/-- A caller that does not have to ring gets on. -/
theorem put (h : s.Sound b) (hd : s.calls i ≠ .departing) (c : Call)
    (hc : c.isClosing = true → s.registry.shuttingDown = true)
    (he : c.isEnabled = true → b.isEnabled i s.bell = true)
    (hh : c.isHeld = true → b.isWoken i s.bell = false →
      s.registry.isEmpty = false ∨ ∃ j, s.calls j = .departing) :
    (s.put i c).Sound b := by
  have departing : (∃ j, s.calls j = .departing) → ∃ j, (s.put i c).calls j = .departing := by
    rintro ⟨j, hj⟩
    have hji : j ≠ i := fun hji => hd (hji ▸ hj)
    exact ⟨j, by rw [put_calls_of_ne s hji, hj]⟩
  refine ⟨fun j hj => ?_, fun j hj => ?_, fun j hj hw => ?_, h.returned⟩
  all_goals by_cases hji : j = i
  · subst hji
    rw [put_calls_self] at hj
    exact hc hj
  · rw [put_calls_of_ne s hji] at hj
    exact h.closing j hj
  · subst hji
    rw [put_calls_self] at hj
    exact he hj
  · rw [put_calls_of_ne s hji] at hj
    exact h.enabled j hj
  · subst hji
    rw [put_calls_self] at hj
    exact (hh hj hw).imp_right departing
  · rw [put_calls_of_ne s hji] at hj
    exact (h.held j hj hw).imp_right departing

theorem register (h : s.Sound b) (x : SessionHandle) :
    Sound b { s with registry := (s.registry.register x).2 } where
  closing j hj := (s.registry.register_shuttingDown x).trans (h.closing j hj)
  enabled := h.enabled
  held j hj hw := (h.held j hj hw).imp_left fun hr => Registry.register_isEmpty hr x
  returned hr := by
    have hdrained := h.returned hr
    rw [Registry.register_of_shuttingDown ((isDrained_iff _).mp hdrained).1]
    exact hdrained

/-- After a shutdown is over there is nobody to take out. -/
theorem deregister_returned (h : s.Sound b) (id : SessionId) (hr : 0 < s.returned) :
    (s.registry.deregister id).2.isDrained = true := by
  have hdrained := h.returned hr
  rw [Registry.deregister_of_isEmpty ((isDrained_iff _).mp hdrained).2]
  exact hdrained

/-- Whoever takes the last session out is going to ring. -/
theorem depart (h : s.Sound b) (id : SessionId) :
    (({ s with registry := (s.registry.deregister id).2 } : Barrier β).put i .departing).Sound b where
  closing j hj := (s.registry.deregister_shuttingDown id).trans (h.closing j (of_put rfl hj))
  enabled j hj := h.enabled j (of_put rfl hj)
  held _ _ _ := .inr ⟨i, put_calls_self _ _ _⟩
  returned := h.deregister_returned id

/-- A session that is not the last one is taken out, or nothing is. -/
theorem deregister (h : s.Sound b) (id : SessionId)
    (hn : ¬ ((s.registry.deregister id).1 = true ∧ (s.registry.deregister id).2.isEmpty = true)) :
    Sound b { s with registry := (s.registry.deregister id).2 } where
  closing j hj := (s.registry.deregister_shuttingDown id).trans (h.closing j hj)
  enabled := h.enabled
  held j hj hw := by
    cases hremoved : (s.registry.deregister id).1 with
    | true => exact .inl (Bool.eq_false_iff.mpr fun he => hn ⟨hremoved, he⟩)
    | false =>
      rw [Registry.deregister_of_not_mem hremoved]
      exact h.held j hj hw
  returned := h.deregister_returned id

/-- The bell wakes everyone who is held. -/
theorem ring (h : s.Sound b) (hb : b.Reliable) :
    (({ s with bell := b.ring s.bell } : Barrier β).put i .idle).Sound b where
  closing j hj := h.closing j (of_put rfl hj)
  enabled j hj := hb.enabled_ring j _ (h.enabled j (of_put rfl hj))
  held j hj hw := by
    have hheld : (s.calls j).isHeld = true := of_put rfl hj
    have henabled : b.isEnabled j s.bell = true := h.enabled j (by simp [Call.isEnabled, hheld])
    have hwoken : b.isWoken j (b.ring s.bell) = true := hb.woken_ring j _ henabled
    exact absurd (hwoken.symm.trans hw) nofun
  returned := h.returned

theorem announce (h : s.Sound b) (hi : s.calls i = .idle) :
    (({ s with registry := s.registry.beginShutdown } : Barrier β).put i .announced).Sound b := by
  have hs : Sound b { s with registry := s.registry.beginShutdown } := by
    refine ⟨fun j _ => rfl, h.enabled, h.held, fun hr => ?_⟩
    rw [isDrained_iff]
    exact ⟨rfl, ((isDrained_iff _).mp (h.returned hr)).2⟩
  exact hs.put (hi ▸ nofun) .announced (fun _ => rfl) nofun nofun

theorem enable (h : s.Sound b) (hb : b.Reliable) (hi : s.calls i = .announced) :
    (({ s with bell := b.enable i s.bell } : Barrier β).put i .enabled).Sound b := by
  -- Whoever waits already is another caller.
  have hne {j : Nat} (hj : (s.calls j).isEnabled = true) : j ≠ i := by
    rintro rfl
    rw [hi] at hj
    cases hj
  have hs : Sound b { s with bell := b.enable i s.bell } := by
    refine ⟨h.closing, fun j hj => ?_, fun j hj hw => ?_, h.returned⟩
    · exact hb.enabled_other s.bell (hne hj) (h.enabled j hj)
    · have hj' : (s.calls j).isEnabled = true := by
        rw [Call.isEnabled, show (s.calls j).isHeld = true from hj, Bool.or_true]
      rw [hb.woken_other s.bell (hne hj')] at hw
      exact h.held j hj hw
  have hclosing : s.registry.shuttingDown = true := h.closing i (by rw [hi]; rfl)
  exact hs.put (hi ▸ nofun) .enabled (fun _ => hclosing) (fun _ => hb.enabled_self i s.bell) nofun

theorem leave (h : s.Sound b) (hi : s.calls i = .enabled) (he : s.registry.isEmpty = true) :
    (({ s with returned := s.returned + 1 } : Barrier β).put i .idle).Sound b := by
  have hclosing : s.registry.shuttingDown = true := h.closing i (by rw [hi]; rfl)
  have hs : Sound b { s with returned := s.returned + 1 } :=
    ⟨h.closing, h.enabled, h.held, fun _ => (isDrained_iff _).mpr ⟨hclosing, he⟩⟩
  exact hs.put (hi ▸ nofun) .idle nofun nofun nofun

theorem turnAway (h : s.Sound b) (hi : s.calls i = .enabled) (hn : s.registry.isEmpty = false) :
    (s.put i .turnedAway).Sound b := by
  have hclosing : s.registry.shuttingDown = true := h.closing i (by rw [hi]; rfl)
  have henabled : b.isEnabled i s.bell = true := h.enabled i (by rw [hi]; rfl)
  exact h.put (hi ▸ nofun) .turnedAway (fun _ => hclosing) (fun _ => henabled) fun _ _ => .inl hn

theorem park (h : s.Sound b) (hi : s.calls i = .turnedAway) : (s.put i .parked).Sound b := by
  have hclosing : s.registry.shuttingDown = true := h.closing i (by rw [hi]; rfl)
  have henabled : b.isEnabled i s.bell = true := h.enabled i (by rw [hi]; rfl)
  have hheld : (s.calls i).isHeld = true := by rw [hi]; rfl
  exact h.put (hi ▸ nofun) .parked (fun _ => hclosing) (fun _ => henabled) fun _ => h.held i hheld

theorem wake (h : s.Sound b) (hi : s.calls i = .parked) : (s.put i .announced).Sound b := by
  have hclosing : s.registry.shuttingDown = true := h.closing i (by rw [hi]; rfl)
  exact h.put (hi ▸ nofun) .announced (fun _ => hclosing) nofun nofun

/-- Every turn leaves it so. -/
theorem taken (h : s.Sound b) (hb : b.Reliable) (ht : s.Taken b i t) : t.Sound b := by
  cases ht with
  | nothing => exact h
  | register x => exact h.register x
  | depart id => exact h.depart id
  | deregister id _ others => exact h.deregister id others
  | ring => exact h.ring hb
  | announce call => exact h.announce call
  | enable call => exact h.enable hb call
  | leave call empty => exact h.leave call empty
  | turnAway call others => exact h.turnAway call others
  | park call => exact h.park call
  | wake call => exact h.wake call

theorem after (h : s.Sound b) (hb : b.Reliable) (ts : List (Nat × Turn)) :
    (s.after b ts).Sound b := by
  induction ts generalizing s with
  | nil => exact h
  | cons t ts ih => exact ih (h.taken hb (s.next_taken b t.1 t.2))

end Sound

variable {b : Bell β} {s t : Barrier β} {i j : Nat}

/-- A registry that has been shut down stays so. -/
theorem Taken.isDrained (ht : s.Taken b i t) (hs : s.registry.isDrained = true) :
    t.registry.isDrained = true := by
  obtain ⟨hclosing, hempty⟩ := (isDrained_iff _).mp hs
  cases ht with
  | register x =>
    rw [Registry.register_of_shuttingDown hclosing]
    exact hs
  | depart id =>
    rw [Registry.deregister_of_isEmpty hempty]
    exact hs
  | deregister id =>
    rw [Registry.deregister_of_isEmpty hempty]
    exact hs
  | announce => exact (isDrained_iff _).mpr ⟨rfl, hempty⟩
  | _ => exact hs

theorem after_isDrained (hs : s.registry.isDrained = true) (ts : List (Nat × Turn)) :
    (s.after b ts).registry.isDrained = true := by
  induction ts generalizing s with
  | nil => exact hs
  | cons t ts ih => exact ih ((s.next_taken b t.1 t.2).isDrained hs)

/-- A caller gets on by its own turns only. -/
theorem Taken.calls_of_ne (ht : s.Taken b i t) (h : j ≠ i) : t.calls j = s.calls j := by
  cases ht with
  | nothing => rfl
  | register => rfl
  | deregister => rfl
  | _ => exact put_calls_of_ne _ h _

theorem Taken.returned_le (ht : s.Taken b i t) : s.returned ≤ t.returned := by
  cases ht with
  | leave => exact Nat.le_succ _
  | _ => exact Nat.le_refl _

/-- Whoever has been woken stays so, whatever the others do. -/
theorem Taken.isWoken (ht : s.Taken b i t) (hb : b.Reliable) (h : j ≠ i)
    (he : b.isEnabled j s.bell = true) (hw : b.isWoken j s.bell = true) :
    b.isWoken j t.bell = true := by
  cases ht with
  | ring => exact hb.woken_ring j _ he
  | enable => exact (hb.woken_other s.bell h).trans hw
  | _ => exact hw

/-- A caller that is on its way out of a shutdown, which is to be at least the `n`-th that is over. -/
structure Leaving (b : Bell β) (s : Barrier β) (i : Nat) (c : Call) (n : Nat) : Prop where
  sound : s.Sound b
  drained : s.registry.isDrained = true
  call : s.calls i = c
  woken : c = .parked → b.isWoken i s.bell = true
  returned : n ≤ s.returned

namespace Leaving

variable {c : Call} {n : Nat}

/-- The others do not keep it. -/
theorem others (h : s.Leaving b i c n) (hb : b.Reliable) {ts : List (Nat × Turn)}
    (hts : ∀ t ∈ ts, t.1 ≠ i) : (s.after b ts).Leaving b i c n := by
  induction ts generalizing s with
  | nil => exact h
  | cons t ts ih =>
    have hne : i ≠ t.1 := (hts t List.mem_cons_self).symm
    have ht : s.Taken b t.1 (s.next b t.1 t.2) := s.next_taken b t.1 t.2
    refine ih ⟨h.sound.taken hb ht, ht.isDrained h.drained, (ht.calls_of_ne hne).trans h.call,
      fun hc => ?_, Nat.le_trans h.returned ht.returned_le⟩
      fun u hu => hts u (List.mem_cons_of_mem t hu)
    have henabled : b.isEnabled i s.bell = true := h.sound.enabled i (by rw [h.call, hc]; rfl)
    exact ht.isWoken hb hne henabled (h.woken hc)

/-- A turn of its own takes it further. -/
theorem own {d : Call} (h : s.Leaving b i c n) (hb : b.Reliable) (x : Turn) (hd : d ≠ .parked)
    (hx : (s.next b i x).calls i = d) : (s.next b i x).Leaving b i d n := by
  have ht : s.Taken b i (s.next b i x) := s.next_taken b i x
  exact ⟨h.sound.taken hb ht, ht.isDrained h.drained, hx, fun hp => absurd hp hd,
    Nat.le_trans h.returned ht.returned_le⟩

theorem wake (h : s.Leaving b i .parked n) (hb : b.Reliable) :
    (s.next b i .wake).Leaving b i .announced n := by
  refine h.own hb .wake nofun ?_
  simp only [next, h.call, h.woken rfl, if_pos, put_calls_self]

theorem enable (h : s.Leaving b i .announced n) (hb : b.Reliable) :
    (s.next b i .enable).Leaving b i .enabled n := by
  refine h.own hb .enable nofun ?_
  simp only [next, h.call, put_calls_self]

theorem check (h : s.Leaving b i .enabled n) :
    (s.next b i .check).calls i = .idle ∧ n < (s.next b i .check).returned := by
  have heq : s.next b i .check =
      ({ s with returned := s.returned + 1 } : Barrier β).put i .idle := by
    simp only [next, h.call, ((isDrained_iff _).mp h.drained).2, if_pos]
  rw [heq, put_calls_self]
  exact ⟨rfl, Nat.lt_succ_of_le h.returned⟩

end Leaving

/-- Once a shutdown is over, the registry is empty and takes nobody, for good. As long as someone is
parked and has not been woken, there is a session or someone who is going to ring. When both are gone,
whoever is parked leaves with the next turns that it takes, whatever the others do in between. -/
theorem shutdown_is_barrier (b : Bell β) (hb : b.Reliable) (ts : List (Nat × Turn)) :
    let s := (start b).after b ts
    (0 < s.returned → ∀ us, let t := s.after b us
      t.registry.isEmpty = true ∧ ∀ h, (t.registry.register h).1 = .error .shuttingDown) ∧
    (∀ i, s.calls i = .parked → b.isWoken i s.bell = false →
      s.registry.isEmpty = false ∨ ∃ j, s.calls j = .departing) ∧
    ∀ i, s.calls i = .parked → s.registry.isEmpty = true → (∀ j, s.calls j ≠ .departing) →
      ∀ us vs ws : List (Nat × Turn), (∀ t ∈ us ++ vs ++ ws, t.1 ≠ i) →
        let t := s.after b (us ++ (i, .wake) :: (vs ++ (i, .enable) :: (ws ++ [(i, .check)])))
        t.calls i = .idle ∧ s.returned < t.returned := by
  intro s
  have hs : s.Sound b := (Sound.start b).after hb ts
  refine ⟨fun hr us => ?_, fun i hi hw => ?_, fun i hi he hd us vs ws hne => ?_⟩
  · obtain ⟨hclosing, hempty⟩ := (isDrained_iff _).mp (after_isDrained (hs.returned hr) us)
    refine ⟨hempty, fun h => ?_⟩
    rw [Registry.register_of_shuttingDown hclosing]
  · exact hs.held i (by rw [hi]; rfl) hw
  · have hwoken : b.isWoken i s.bell = true := by
      rw [← Bool.not_eq_false]
      intro hw
      rcases hs.held i (by rw [hi]; rfl) hw with hn | ⟨j, hj⟩
      · exact absurd (he.symm.trans hn) nofun
      · exact hd j hj
    have hclosing : s.registry.shuttingDown = true := hs.closing i (by rw [hi]; rfl)
    have hleaving : s.Leaving b i .parked s.returned :=
      ⟨hs, (isDrained_iff _).mpr ⟨hclosing, he⟩, hi, fun _ => hwoken, Nat.le_refl _⟩
    simp only [List.mem_append, or_imp, forall_and] at hne
    obtain ⟨⟨hus, hvs⟩, hws⟩ := hne
    simp only [after_append, after_cons, after_nil]
    have hannounced := (hleaving.others hb hus).wake hb
    have henabled := (hannounced.others hb hvs).enable hb
    exact (henabled.others hb hws).check

/-- Two callers shut a registry down at once. The session goes after one of them has parked, and the
other one sees that before the bell has rung. -/
theorem shutdown_is_barrier_of_two :
    let b := Bell.plain
    let ts := [(0, .register ⟨⟨1⟩, "Steve", "127.0.0.1:1", 0⟩), (1, .announce), (2, .announce),
      (1, .enable), (2, .enable), (1, .check), (1, .park), (0, .deregister ⟨1⟩)]
    let s := (start b).after b ts
    let t := (start b).after b (ts ++ [(2, .check), (0, .ring)])
    b.Reliable ∧
      (s.calls 1 = .parked ∧ b.isWoken 1 s.bell = false ∧ s.registry.isEmpty = true ∧
        ∃ j, s.calls j = .departing) ∧
      (0 < t.returned ∧ ∀ h, (t.registry.register h).1 = .error .shuttingDown) ∧
      (t.calls 1 = .parked ∧ (t.after b [(1, .wake), (1, .enable), (1, .check)]).calls 1 = .idle) := by
  intro b ts s t
  have hb : b.Reliable := Bell.plain_reliable
  obtain ⟨-, hheld, -⟩ := shutdown_is_barrier b hb ts
  obtain ⟨hover, -, hleaves⟩ := shutdown_is_barrier b hb (ts ++ [(2, .check), (0, .ring)])
  have hcalls : ∀ j, t.calls j ≠ .departing
    | 0 => by decide
    | 1 => by decide
    | 2 => by decide
    | j + 3 => nofun
  have hparked : s.calls 1 = .parked ∧ b.isWoken 1 s.bell = false ∧ s.registry.isEmpty = true := by
    decide
  have hended : 0 < t.returned ∧ t.calls 1 = .parked ∧ t.registry.isEmpty = true := by decide
  rw [show (start b).after b ts = s from rfl] at hheld
  rw [show (start b).after b (ts ++ [(2, .check), (0, .ring)]) = t from rfl] at hover hleaves
  clear_value s t
  obtain ⟨hcall, hwoken, hempty⟩ := hparked
  obtain ⟨hreturned, hcall', hempty'⟩ := hended
  have hdeparting : ∃ j, s.calls j = .departing :=
    (hheld 1 hcall hwoken).resolve_left (by rw [hempty]; nofun)
  exact ⟨hb, ⟨hcall, hwoken, hempty, hdeparting⟩, ⟨hreturned, (hover hreturned []).2⟩, hcall',
    (hleaves 1 hcall' hempty' hcalls [] [] [] nofun).1⟩

end Barrier
end EditionGateway
