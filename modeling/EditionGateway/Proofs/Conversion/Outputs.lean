import EditionGateway.Conversion.Dispatch

/-!
What the built-in conversions can give: only packets of the play phase for the backend, and a farewell
to the client only for a farewell of the backend.
-/

namespace EditionGateway.Conversion

/-- All packets that a conversion gives are of one sort. -/
def Given {target : Type} (P : target → Prop) (u : Update (List target)) : Prop :=
  ∀ c out c', u c = (.ok out, c') → ∀ q ∈ out, P q

/-- All packets that a converter can give are of one sort. -/
def Converter.Yields {source target : Type} (t : Converter source target) (P : target → Prop) : Prop :=
  ∀ m c p, Given P (t m c p)

section

variable {source target : Type} {P : target → Prop}

@[simp] theorem given_ok (out : List target) (c : SessionContext) :
    Given P (.ok (out, c)) ↔ ∀ q ∈ out, P q := by
  constructor
  · intro h
    exact h c out c rfl
  · intro h _ out' c' he
    obtain rfl : out = out' := Except.ok.inj (Prod.mk.inj he).1
    exact h

theorem given_nil (c : SessionContext) : Given P (.ok (([] : List target), c)) :=
  (given_ok [] c).mpr nofun

theorem given_singleton {q : target} (c : SessionContext) (h : P q) : Given P (.ok ([q], c)) := by
  refine (given_ok [q] c).mpr fun r hr => ?_
  rwa [List.mem_singleton.mp hr]

@[simp] theorem given_error (e : ConversionError) : Given P (.error e) := by
  intro _ out c he
  cases (Prod.mk.inj he).1

theorem given_pure {out : List target} (h : ∀ q ∈ out, P q) : Given P (pure out) := by
  intro _ out' c' he
  obtain rfl : out = out' := Except.ok.inj (Prod.mk.inj he).1
  exact h

theorem given_bind {α : Type} (u : Update α) {f : α → Update (List target)}
    (h : ∀ a, Given P (f a)) : Given P (u >>= f) := by
  intro c out c' he
  cases hu : u c with
  | mk r d =>
    cases r with
    | ok a =>
      rw [Update.bind_of_ok hu] at he
      exact h a d out c' he
    | error e =>
      rw [Update.bind_of_error hu] at he
      cases (Prod.mk.inj he).1

theorem mem_apply {m : Mappings} {t? : Option (Converter source target)} {stats : ConversionStats}
    {c : SessionContext} {p : source} (ht : ∀ t, t? = some t → t.Yields P) :
    ∀ q ∈ (Converters.apply m t? stats c p).packets, P q := by
  unfold Converters.apply
  split
  · simp
  · next t =>
    split
    · next out c' hok => exact ht t rfl m c p c out c' hok
    · split <;> simp

/-- What a packet is converted to does not depend on the counters. -/
theorem apply_stats (m : Mappings) (t? : Option (Converter source target)) (a b : ConversionStats)
    (c : SessionContext) (p : source) :
    (Converters.apply m t? a c p).packets = (Converters.apply m t? b c p).packets ∧
      (Converters.apply m t? a c p).context = (Converters.apply m t? b c p).context := by
  unfold Converters.apply
  split
  · exact ⟨rfl, rfl⟩
  · split
    · exact ⟨rfl, rfl⟩
    · split <;> exact ⟨rfl, rfl⟩

end

namespace ToBackend

/-- A packet of the play phase. -/
def Plays (q : Backend.Packet) : Prop := q.kind.phase = .play

theorem text_yields : Converter.Yields text Plays := by
  intro m c p
  unfold text
  split
  · split
    · exact given_singleton c rfl
    · exact given_nil c
  · exact given_nil c

theorem command_yields : Converter.Yields command Plays := by
  intro m c p
  unfold command
  split
  · dsimp only
    split
    · exact given_nil c
    · exact given_singleton c rfl
  · exact given_nil c

theorem movePlayer_yields : Converter.Yields movePlayer Plays := by
  intro m c p
  unfold movePlayer
  split
  · refine given_bind _ fun _ => given_bind _ fun _ => given_bind _ fun pending => given_pure ?_
    simp only [List.mem_append, Option.mem_toList, Option.map_eq_some_iff, List.mem_singleton]
    rintro q (⟨t, -, rfl⟩ | rfl) <;> rfl
  · exact given_nil c

theorem animate_yields : Converter.Yields animate Plays := by
  intro m c p
  unfold animate
  split
  · exact given_singleton c rfl
  · exact given_nil c

theorem chunkRadius_yields : Converter.Yields chunkRadius Plays := by
  intro m c p
  unfold chunkRadius
  split
  · exact given_singleton c rfl
  · exact given_nil c

theorem respawn_yields : Converter.Yields respawn Plays := by
  intro m c p
  unfold respawn
  split
  · exact given_singleton c rfl
  · exact given_nil c

theorem latency_yields : Converter.Yields latency Plays := by
  intro m c p
  unfold latency
  split
  · split
    · exact given_nil c
    · split
      · exact given_singleton c rfl
      · exact given_error _
  · exact given_nil c

theorem converters_yield {k : Client.Kind} {t : ToBackend} (h : (k, t) ∈ converters) :
    t.Yields Plays := by
  simp only [converters, List.mem_cons, Prod.mk.injEq, List.not_mem_nil, or_false] at h
  rcases h with ⟨-, rfl⟩ | ⟨-, rfl⟩ | ⟨-, rfl⟩ | ⟨-, rfl⟩ | ⟨-, rfl⟩ | ⟨-, rfl⟩ | ⟨-, rfl⟩
  · exact text_yields
  · exact command_yields
  · exact movePlayer_yields
  · exact animate_yields
  · exact chunkRadius_yields
  · exact respawn_yields
  · exact latency_yields

end ToBackend

namespace ToClient

/-- The kinds of packet that the client is given, apart from the farewell. -/
def isGiven : Client.Kind → Bool
  | .text | .startGame | .chunkRadiusUpdated | .networkStackLatency | .movePlayer | .setTime | .setHealth
  | .addEntity | .removeEntity | .updateBlock | .levelSoundEvent => true
  | _ => false

def Shows (q : Client.Packet) : Prop := isGiven q.kind = true

theorem Shows.kind_ne {q : Client.Packet} (h : Shows q) {k : Client.Kind} (hk : isGiven k = false) :
    q.kind ≠ k := by
  rintro rfl
  exact Bool.false_ne_true (hk.symm.trans h)

theorem chatMessage_yields : Converter.Yields chatMessage Shows := by
  intro m c p
  unfold chatMessage
  split
  · dsimp only
    split <;> exact given_singleton c rfl
  · exact given_nil c

theorem joinGame_yields : Converter.Yields joinGame Shows := by
  intro m c p
  unfold joinGame
  split
  · refine given_bind _ fun _ => given_bind _ fun _ => given_bind _ fun _ => given_pure ?_
    simp only [List.mem_cons, List.not_mem_nil, or_false]
    rintro q (rfl | rfl) <;> rfl
  · exact given_nil c

theorem keepAlive_yields : Converter.Yields keepAlive Shows := by
  intro m c p
  unfold keepAlive
  split
  · split
    · exact given_singleton c rfl
    · exact given_error _
  · exact given_nil c

theorem positionAndLook_yields : Converter.Yields positionAndLook Shows := by
  intro m c p
  unfold positionAndLook
  split
  · refine given_bind _ fun _ => given_bind _ fun _ => given_bind _ fun _ => given_pure ?_
    simp only [List.mem_singleton]
    rintro q rfl
    rfl
  · exact given_nil c

theorem timeUpdate_yields : Converter.Yields timeUpdate Shows := by
  intro m c p
  unfold timeUpdate
  split
  · exact given_singleton c rfl
  · exact given_nil c

theorem updateHealth_yields : Converter.Yields updateHealth Shows := by
  intro m c p
  unfold updateHealth
  split
  · split
    · exact given_singleton c rfl
    · exact given_error _
  · exact given_nil c

theorem spawnEntity_yields : Converter.Yields spawnEntity Shows := by
  intro m c p
  unfold spawnEntity
  split
  · refine given_bind _ fun _ => given_bind _ fun _ => given_pure ?_
    simp only [List.mem_singleton]
    rintro q rfl
    rfl
  · exact given_nil c

theorem removeEntities_yields : Converter.Yields removeEntities Shows := by
  intro m c p
  unfold removeEntities
  split
  · refine given_bind _ fun ids => given_pure fun q hq => ?_
    obtain ⟨id, -, rfl⟩ := List.mem_map.mp hq
    rfl
  · exact given_nil c

theorem blockChange_yields : Converter.Yields blockChange Shows := by
  intro m c p
  unfold blockChange
  split
  · split
    · exact given_singleton c rfl
    · exact given_error _
  · exact given_nil c

theorem soundEffect_yields : Converter.Yields soundEffect Shows := by
  intro m c p
  unfold soundEffect
  split
  · split
    · exact given_singleton c rfl
    · exact given_error _
  · exact given_nil c

theorem converters_yield {k : Backend.Kind} {t : ToClient} (h : (k, t) ∈ converters)
    (hk : k ≠ .disconnect) : t.Yields Shows := by
  simp only [converters, List.mem_cons, Prod.mk.injEq, List.not_mem_nil, or_false] at h
  rcases h with ⟨-, rfl⟩ | ⟨-, rfl⟩ | ⟨-, rfl⟩ | ⟨-, rfl⟩ | ⟨-, rfl⟩ | ⟨-, rfl⟩ | ⟨-, rfl⟩ |
    ⟨-, rfl⟩ | ⟨-, rfl⟩ | ⟨-, rfl⟩ | ⟨rfl, -⟩
  · exact chatMessage_yields
  · exact joinGame_yields
  · exact keepAlive_yields
  · exact positionAndLook_yields
  · exact timeUpdate_yields
  · exact updateHealth_yields
  · exact spawnEntity_yields
  · exact removeEntities_yields
  · exact blockChange_yields
  · exact soundEffect_yields
  · exact absurd rfl hk

end ToClient

end EditionGateway.Conversion

namespace EditionGateway.Converters

open Conversion

/-- Whatever a client says, the backend gets nothing but play of it. -/
theorem standard_plays (m : Mappings) (stats : ConversionStats) (c : SessionContext)
    (p : Client.Packet) :
    ∀ q ∈ ((standard m).dispatchToBackend stats c p).packets, q.phase = .play :=
  mem_apply fun _ ht => ToBackend.converters_yield (Table.mem_of_get? ht)

/-- Of what the backend says, a farewell apart, the client gets nothing but packets of certain kinds. -/
theorem standard_shows (m : Mappings) (stats : ConversionStats) (c : SessionContext) {p : Backend.Packet}
    (hp : p.kind ≠ .disconnect) :
    ∀ q ∈ ((standard m).dispatchToClient stats c p).packets, ToClient.Shows q :=
  mem_apply fun _ ht => ToClient.converters_yield (Table.mem_of_get? ht) hp

/-- No conversion makes a farewell of anything else. -/
def Discreet (t : Converters) : Prop :=
  ∀ stats c p, p.kind ≠ .disconnect →
    ∀ q ∈ (t.dispatchToClient stats c p).packets, q.kind ≠ .disconnect

theorem standard_discreet (m : Mappings) : (standard m).Discreet :=
  fun stats c _ hp q hq => (standard_shows m stats c hp q hq).kind_ne rfl

end EditionGateway.Converters
