import EditionGateway.Proofs.Conversion.Outputs
import EditionGateway.Proofs.Session.EntityNumbers

/-!
The entities that a client shows. They are those that its session has a number for, the player apart, and
those that have been stranded there: an entity that becomes the player, or the player where he is spawned as
an entity (`shows_iff`).
-/

namespace EditionGateway

open Conversion

namespace Client

/-- The entities that are shown after one more packet. -/
def Packet.showing (shown : List RuntimeId) : Packet → List RuntimeId
  | .addEntity id .. => id :: shown
  | .removeEntity id => shown.filter (· ≠ id)
  | _ => shown

/-- The entities that a client has been told to add, and not been told to remove since. -/
def shownAfter (shown : List RuntimeId) (out : List Packet) : List RuntimeId :=
  out.foldl Packet.showing shown

/-- A packet that neither adds nor removes an entity. -/
def IsScenery (q : Packet) : Prop := q.kind ≠ .addEntity ∧ q.kind ≠ .removeEntity

theorem shownAfter_append (shown : List RuntimeId) (out out' : List Packet) :
    shownAfter shown (out ++ out') = shownAfter (shownAfter shown out) out' :=
  List.foldl_append

theorem shownAfter_scenery (shown : List RuntimeId) {out : List Packet} (h : ∀ q ∈ out, IsScenery q) :
    shownAfter shown out = shown := by
  induction out generalizing shown with
  | nil => rfl
  | cons q out ih =>
    have hq : q.showing shown = shown := by
      have hscenery := h q List.mem_cons_self
      cases q <;> first | rfl | exact absurd rfl hscenery.1 | exact absurd rfl hscenery.2
    show shownAfter (q.showing shown) out = shown
    rw [hq]
    exact ih shown fun q hq => h q (List.mem_cons_of_mem _ hq)

end Client

namespace Conversion

/-- It tells the client nothing about entities, and the session learns nothing about them. -/
structure Update.IsAside (u : Update (List Client.Packet)) (c : SessionContext) : Prop where
  given : Given Client.IsScenery u
  entities : (u c).2.entities = c.entities
  nextRuntimeId : (u c).2.nextRuntimeId = c.nextRuntimeId

def Converter.IsAside (t : ToClient) : Prop := ∀ m c p, (t m c p).IsAside c

namespace ToClient

section Aside

variable (c : SessionContext)

theorem isAside_nil : (Update.ok (([] : List Client.Packet), c)).IsAside c := ⟨given_nil c, rfl, rfl⟩

theorem isAside_singleton {q : Client.Packet} (h : Client.IsScenery q) :
    (Update.ok ([q], c)).IsAside c :=
  ⟨given_singleton c h, rfl, rfl⟩

theorem isAside_error (e : ConversionError) :
    (Update.error e : Update (List Client.Packet)).IsAside c :=
  ⟨given_error e, rfl, rfl⟩

end Aside

theorem chatMessage_isAside : Converter.IsAside chatMessage := by
  intro m c p
  unfold chatMessage
  split
  · dsimp only
    split <;> exact isAside_singleton c ⟨nofun, nofun⟩
  · exact isAside_nil c

theorem keepAlive_isAside : Converter.IsAside keepAlive := by
  intro m c p
  unfold keepAlive
  split
  · split
    · exact isAside_singleton c ⟨nofun, nofun⟩
    · exact isAside_error c _
  · exact isAside_nil c

theorem positionAndLook_isAside : Converter.IsAside positionAndLook := by
  intro m c p
  unfold positionAndLook
  split
  · refine ⟨given_bind _ fun _ => given_bind _ fun _ => given_bind _ fun _ => given_pure ?_, ?_, ?_⟩
    · simp only [List.mem_singleton]
      rintro q rfl
      exact ⟨nofun, nofun⟩
    all_goals
      unfold Update.require
      split <;> rfl
  · exact isAside_nil c

theorem timeUpdate_isAside : Converter.IsAside timeUpdate := by
  intro m c p
  unfold timeUpdate
  split
  · exact isAside_singleton c ⟨nofun, nofun⟩
  · exact isAside_nil c

theorem updateHealth_isAside : Converter.IsAside updateHealth := by
  intro m c p
  unfold updateHealth
  split
  · split
    · exact isAside_singleton c ⟨nofun, nofun⟩
    · exact isAside_error c _
  · exact isAside_nil c

theorem blockChange_isAside : Converter.IsAside blockChange := by
  intro m c p
  unfold blockChange
  split
  · split
    · exact isAside_singleton c ⟨nofun, nofun⟩
    · exact isAside_error c _
  · exact isAside_nil c

theorem soundEffect_isAside : Converter.IsAside soundEffect := by
  intro m c p
  unfold soundEffect
  split
  · split
    · exact isAside_singleton c ⟨nofun, nofun⟩
    · exact isAside_error c _
  · exact isAside_nil c

theorem disconnect_isAside : Converter.IsAside disconnect := by
  intro m c p
  unfold disconnect
  split
  · exact isAside_singleton c ⟨nofun, nofun⟩
  · exact isAside_nil c

theorem converters_isAside {k : Backend.Kind} {t : ToClient} (h : (k, t) ∈ converters)
    (hjoin : k ≠ .joinGame) (hspawn : k ≠ .spawnEntity) (hremove : k ≠ .removeEntities) :
    Converter.IsAside t := by
  simp only [converters, List.mem_cons, Prod.mk.injEq, List.not_mem_nil, or_false] at h
  rcases h with ⟨-, rfl⟩ | ⟨rfl, -⟩ | ⟨-, rfl⟩ | ⟨-, rfl⟩ | ⟨-, rfl⟩ | ⟨-, rfl⟩ | ⟨rfl, -⟩ |
    ⟨rfl, -⟩ | ⟨-, rfl⟩ | ⟨-, rfl⟩ | ⟨-, rfl⟩
  · exact chatMessage_isAside
  · exact absurd rfl hjoin
  · exact keepAlive_isAside
  · exact positionAndLook_isAside
  · exact timeUpdate_isAside
  · exact updateHealth_isAside
  · exact absurd rfl hspawn
  · exact absurd rfl hremove
  · exact blockChange_isAside
  · exact soundEffect_isAside
  · exact disconnect_isAside

/-- Forgetting one entity, as `forgetAll` does it. -/
def forgetNext (s : List RuntimeId × SessionContext) (entity : Int32) :
    List RuntimeId × SessionContext :=
  ((s.2.forgetEntity entity).1.toList ++ s.1, (s.2.forgetEntity entity).2)

theorem forgetAll_eq (c : SessionContext) (entities : List Int32) :
    forgetAll c entities = ((entities.foldl forgetNext ([], c)).1.reverse,
      (entities.foldl forgetNext ([], c)).2) := by
  refine congrArg (fun f => ((entities.foldl f ([], c)).1.reverse, (entities.foldl f ([], c)).2))
    (funext fun ⟨ids, c⟩ => funext fun entity => ?_)
  unfold forgetNext
  dsimp only
  cases c.forgetEntity entity with
  | mk id? d => cases id? <;> rfl

end ToClient
end Conversion

namespace SessionContext

/-- The client should show the entity of this number. -/
def Holds (c : SessionContext) (r : RuntimeId) : Prop := r ≠ .player ∧ ∃ x, c.runtimeId? x = some r

end SessionContext

/-- The client shows what the session has numbers for, and some entities that are lost to the session. -/
structure Tracks (c : SessionContext) (shown : List RuntimeId) (Lost : RuntimeId → Prop) (n : Nat) :
    Prop where
  numbered : c.Numbered n
  shown_iff : ∀ r, r ∈ shown ↔ c.Holds r ∨ Lost r
  apart : ∀ r, Lost r → ¬ c.Holds r
  old : ∀ r, Lost r → r ≠ .player → r.value.toNat < n + 2

namespace Tracks

variable {c : SessionContext} {shown : List RuntimeId} {Lost : RuntimeId → Prop} {n : Nat}

theorem start (fresh : c.entities = {}) (first : c.nextRuntimeId = 2) :
    Tracks c [] (fun _ => False) 0 := by
  have hnone (r : RuntimeId) : ¬ c.Holds r := by
    rintro ⟨-, x, hx⟩
    rw [SessionContext.runtimeId?_fresh fresh] at hx
    cases hx
  refine ⟨.start fresh first, fun r => ?_, fun r hr => hr.elim, fun r hr => hr.elim⟩
  rw [or_false]
  exact ⟨nofun, fun hr => (hnone r hr).elim⟩

theorem congr (h : Tracks c shown Lost n) {d : SessionContext} (same : d.entities = c.entities)
    (next : d.nextRuntimeId = c.nextRuntimeId) : Tracks d shown Lost n := by
  have hholds (r : RuntimeId) : d.Holds r ↔ c.Holds r := by
    unfold SessionContext.Holds SessionContext.runtimeId?
    rw [same]
  refine ⟨h.numbered.congr same next, fun r => ?_, fun r hr => ?_, h.old⟩
  · rw [hholds]
    exact h.shown_iff r
  · rw [hholds]
    exact h.apart r hr

theorem forget (h : Tracks c shown Lost n) (entity : Int32) :
    Tracks (c.forgetEntity entity).2
      (Client.shownAfter shown ((c.forgetEntity entity).1.toList.map .removeEntity)) Lost n := by
  by_cases hother : c.entities.player = some entity
  · rw [c.forgetEntity_of_player entity hother]
    exact h
  obtain ⟨hnumbered, hget⟩ := h.numbered.takeBack hother
  have hid : (c.forgetEntity entity).1 = c.runtimeId? entity := by
    rw [c.forgetEntity_of_other entity hother]
  -- what is still held is what has been held, but for the number of the entity
  have hholds (r : RuntimeId) :
      (c.forgetEntity entity).2.Holds r ↔ c.Holds r ∧ c.runtimeId? entity ≠ some r := by
    constructor
    · rintro ⟨hr, x, hx⟩
      rw [hget] at hx
      split at hx
      · cases hx
      · next hne =>
        exact ⟨⟨hr, x, hx⟩, fun hentity => hne (h.numbered.distinct x entity r hx hentity)⟩
    · rintro ⟨⟨hr, x, hx⟩, hentity⟩
      have hne : x ≠ entity := by
        rintro rfl
        exact hentity hx
      exact ⟨hr, x, by rw [hget, if_neg hne, hx]⟩
  refine ⟨hnumbered, fun r => ?_, fun r hr hd => h.apart r hr ((hholds r).mp hd).1, h.old⟩
  rw [hid, hholds]
  cases hentity : c.runtimeId? entity with
  | none =>
    show r ∈ shown ↔ _
    rw [h.shown_iff]
    simp
  | some id =>
    have hheld : c.Holds id := by
      refine ⟨?_, entity, hentity⟩
      rintro rfl
      exact hother ((h.numbered.player entity).mp hentity)
    show r ∈ shown.filter (· ≠ id) ↔ _
    rw [List.mem_filter, h.shown_iff, decide_eq_true_iff]
    constructor
    · rintro ⟨hr | hr, hne⟩
      · exact .inl ⟨hr, fun heq => hne (Option.some.inj heq).symm⟩
      · exact .inr hr
    · rintro (⟨hr, hne⟩ | hr)
      · exact ⟨.inl hr, fun heq => hne (heq ▸ rfl)⟩
      · refine ⟨.inr hr, ?_⟩
        rintro rfl
        exact h.apart r hr hheld

/-- All entities are forgotten one by one. -/
theorem forgetAll (h : Tracks c shown Lost n) (entities : List Int32) :
    Tracks (ToClient.forgetAll c entities).2
      (Client.shownAfter shown ((ToClient.forgetAll c entities).1.map .removeEntity)) Lost n := by
  rw [ToClient.forgetAll_eq]
  suffices hall : ∀ s : List RuntimeId × SessionContext,
      Tracks s.2 (Client.shownAfter shown (s.1.reverse.map .removeEntity)) Lost n →
      Tracks (entities.foldl ToClient.forgetNext s).2
        (Client.shownAfter shown
          ((entities.foldl ToClient.forgetNext s).1.reverse.map .removeEntity)) Lost n from
    hall ([], c) h
  induction entities with
  | nil => exact fun s hs => hs
  | cons entity entities ih =>
    intro s hs
    refine ih _ ?_
    have hnext := hs.forget entity
    rw [← Client.shownAfter_append, ← List.map_append] at hnext
    have hreverse : ((s.2.forgetEntity entity).1.toList ++ s.1).reverse =
        s.1.reverse ++ (s.2.forgetEntity entity).1.toList := by
      rw [List.reverse_append]
      cases (s.2.forgetEntity entity).1 <;> rfl
    show Tracks (s.2.forgetEntity entity).2 (Client.shownAfter shown
      (((s.2.forgetEntity entity).1.toList ++ s.1).reverse.map .removeEntity)) Lost n
    rwa [hreverse]

/-- What is spawned is shown. It is lost if it has the player's number. -/
theorem spawn (h : Tracks c shown Lost n) (entity : Int32) (room : n + 2 < UInt64.size) :
    ∃ k ≤ n + 1, Tracks (c.mapEntity entity).2 ((c.mapEntity entity).1 :: shown)
      (fun r => Lost r ∨ c.runtimeId? entity = some r ∧ r = .player) k := by
  cases hentity : c.runtimeId? entity with
  | some id =>
    rw [c.mapEntity_of_known entity hentity]
    refine ⟨n, Nat.le_succ n, h.numbered, fun r => ?_, fun r hr hheld => ?_, fun r hr hne => ?_⟩
    · rw [List.mem_cons, h.shown_iff, Option.some.injEq]
      by_cases hplayer : id = .player
      · grind
      · have hheld : c.Holds id := ⟨hplayer, entity, hentity⟩
        grind
    · rcases hr with hr | ⟨-, rfl⟩
      · exact h.apart r hr hheld
      · exact hheld.1 rfl
    · exact h.old r (hr.resolve_right fun hr => hne hr.2) hne
  | none =>
    obtain ⟨hnumbered, hget⟩ := h.numbered.handOut room hentity
    have hid : (c.mapEntity entity).1 = ⟨c.nextRuntimeId⟩ := by
      rw [c.mapEntity_of_unknown entity hentity]
    have hnew : ∀ r, Lost r → r ≠ ⟨c.nextRuntimeId⟩ := by
      rintro r hr rfl
      have hold := h.old _ hr (h.numbered.next_ne_player room)
      dsimp only at hold
      rw [h.numbered.next_toNat room] at hold
      exact Nat.lt_irrefl _ hold
    have hholds (r : RuntimeId) :
        (c.mapEntity entity).2.Holds r ↔ r = ⟨c.nextRuntimeId⟩ ∨ c.Holds r := by
      constructor
      · rintro ⟨hr, x, hx⟩
        rw [hget] at hx
        split at hx
        · exact .inl (Option.some.inj hx).symm
        · exact .inr ⟨hr, x, hx⟩
      · rintro (rfl | ⟨hr, x, hx⟩)
        · exact ⟨h.numbered.next_ne_player room, entity, by rw [hget, if_pos rfl]⟩
        · have hne : x ≠ entity := by
            rintro rfl
            rw [hentity] at hx
            cases hx
          exact ⟨hr, x, by rw [hget, if_neg hne, hx]⟩
    refine ⟨n + 1, Nat.le_refl _, hnumbered, fun r => ?_, fun r hr hheld => ?_, fun r hr hne => ?_⟩
    · rw [hid, List.mem_cons, h.shown_iff, hholds]
      simp [or_assoc]
    · have hr : Lost r := hr.resolve_right fun hr => nomatch hr.1
      rcases (hholds r).mp hheld with heq | hheld
      · exact hnew r hr heq
      · exact h.apart r hr hheld
    · exact Nat.lt_succ_of_lt (h.old r (hr.resolve_right fun hr => hne hr.2) hne)

/-- Of an entity that becomes the player, the client still shows what it was. -/
theorem join (h : Tracks c shown Lost n) (entity : Int32) :
    Tracks (c.bindPlayer entity) shown
      (fun r => Lost r ∨ c.runtimeId? entity = some r ∧ r ≠ .player) n := by
  have hholds (r : RuntimeId) :
      (c.bindPlayer entity).Holds r ↔ c.Holds r ∧ c.runtimeId? entity ≠ some r := by
    constructor
    · rintro ⟨hr, x, hx⟩
      rw [SessionContext.runtimeId?_bindPlayer] at hx
      split at hx
      · exact absurd (Option.some.inj hx).symm hr
      · next hne =>
        split at hx
        · cases hx
        · exact ⟨⟨hr, x, hx⟩, fun hentity => hne (h.numbered.distinct x entity r hx hentity)⟩
    · rintro ⟨⟨hr, x, hx⟩, hentity⟩
      have hne : x ≠ entity := by
        rintro rfl
        exact hentity hx
      have hother : c.entities.player ≠ some x := by
        intro hplayer
        rw [(h.numbered.player x).mpr hplayer] at hx
        exact hr (Option.some.inj hx).symm
      exact ⟨hr, x, by rw [SessionContext.runtimeId?_bindPlayer, if_neg hne, if_neg hother, hx]⟩
  refine ⟨h.numbered.bindPlayer entity, fun r => ?_, fun r hr hheld => ?_, fun r hr hne => ?_⟩
  · rw [h.shown_iff, hholds]
    constructor
    · rintro (hr | hr)
      · by_cases hentity : c.runtimeId? entity = some r
        · exact .inr (.inr ⟨hentity, hr.1⟩)
        · exact .inl ⟨hr, hentity⟩
      · exact .inr (.inl hr)
    · rintro (hr | hr | ⟨hentity, hr⟩)
      · exact .inl hr.1
      · exact .inr hr
      · exact .inl ⟨hr, entity, hentity⟩
  · obtain ⟨hheld, hentity⟩ := (hholds r).mp hheld
    rcases hr with hr | hr
    · exact h.apart r hr hheld
    · exact hentity hr.1
  · rcases hr with hr | hr
    · exact h.old r hr hne
    · exact h.numbered.old entity r hr.1 hne

end Tracks

/-- With this packet the client is left with an entity of the number `r` that its session does not know: one
that becomes the player, or the player himself when he is spawned. -/
def Backend.Packet.Strands (m : Mappings) (c : SessionContext) (r : RuntimeId) : Backend.Packet → Prop
  | .joinGame entity _ dimension .. =>
    (ToClient.dimension? dimension).isSome ∧ c.runtimeId? entity = some r ∧ r ≠ .player
  | .spawnEntity entity _ type .. =>
    (m.entity? type).isSome ∧ c.runtimeId? entity = some r ∧ r = .player
  | _ => False

theorem Backend.Packet.Strands.kind {m : Mappings} {c : SessionContext} {r : RuntimeId}
    {p : Backend.Packet} (h : p.Strands m c r) : p.kind = .joinGame ∨ p.kind = .spawnEntity := by
  cases p <;> first | exact .inl rfl | exact .inr rfl | exact h.elim

namespace Converters

/-- What has come of the packets of the backend, after one more of them. -/
def proceed (t : Converters) (d : Dispatched Client.Packet) (p : Backend.Packet) :
    Dispatched Client.Packet :=
  let next := t.dispatchToClient d.stats d.context p
  { next with packets := d.packets ++ next.packets }

/-- The packets of the backend, dispatched one after the other. -/
def dispatchAll (t : Converters) (stats : ConversionStats) (c : SessionContext)
    (ps : List Backend.Packet) : Dispatched Client.Packet :=
  ps.foldl t.proceed ⟨[], c, stats⟩

theorem dispatchAll_concat (t : Converters) (stats : ConversionStats) (c : SessionContext)
    (ps : List Backend.Packet) (p : Backend.Packet) :
    t.dispatchAll stats c (ps ++ [p]) = t.proceed (t.dispatchAll stats c ps) p := by
  simp [dispatchAll]

section Dispatch

variable (m : Mappings) (stats : ConversionStats) (c : SessionContext)

theorem dispatch_aside {p : Backend.Packet} (hjoin : p.kind ≠ .joinGame)
    (hspawn : p.kind ≠ .spawnEntity) (hremove : p.kind ≠ .removeEntities) :
    (∀ q ∈ ((standard m).dispatchToClient stats c p).packets, Client.IsScenery q) ∧
      ((standard m).dispatchToClient stats c p).context.entities = c.entities ∧
      ((standard m).dispatchToClient stats c p).context.nextRuntimeId = c.nextRuntimeId := by
  have haside {t : ToClient} (ht : (standard m).toClient.get? p.kind = some t) : t.IsAside :=
    ToClient.converters_isAside (Table.mem_of_get? ht) hjoin hspawn hremove
  refine ⟨mem_apply fun t ht m c p => (haside ht m c p).given, ?_⟩
  unfold dispatchToClient apply
  split
  · exact ⟨rfl, rfl⟩
  · next t ht =>
    have hentities := (haside ht (standard m).mappings c p).entities
    have hnext := (haside ht (standard m).mappings c p).nextRuntimeId
    split
    · next hok =>
      rw [hok] at hentities hnext
      exact ⟨hentities, hnext⟩
    · next herr =>
      rw [herr] at hentities hnext
      split <;> exact ⟨hentities, hnext⟩

theorem dispatch_joinGame (entity : Int32) (mode : UInt8) (dimension : Int32) (difficulty players : UInt8)
    (view : Int32) (hardcore : Bool) :
    let d := (standard m).dispatchToClient stats c
      (.joinGame entity mode dimension difficulty players view hardcore)
    (∀ q ∈ d.packets, Client.IsScenery q) ∧
      d.context = if (ToClient.dimension? dimension).isSome then c.bindPlayer entity else c := by
  intro d
  have hd : d = apply m (some ToClient.joinGame) stats c
      (.joinGame entity mode dimension difficulty players view hardcore) := rfl
  rw [hd]
  unfold apply ToClient.joinGame
  dsimp only
  cases ToClient.dimension? dimension with
  | none => exact ⟨nofun, rfl⟩
  | some code =>
    refine ⟨fun q hq => ?_, rfl⟩
    change q ∈ [.startGame .player (ToClient.gameMode mode) (c.position.getD {}) 0 0 code difficulty
      hardcore, .chunkRadiusUpdated view] at hq
    simp only [List.mem_cons, List.not_mem_nil, or_false] at hq
    rcases hq with rfl | rfl <;> exact ⟨nofun, nofun⟩

theorem dispatch_spawnEntity (entity : Int32) (uuid : Uuid) (type : Int32) (x y z : UInt64)
    (pitch yaw : UInt32) :
    let d := (standard m).dispatchToClient stats c (.spawnEntity entity uuid type x y z pitch yaw)
    match m.entity? type with
    | some identifier => d.packets = [.addEntity (c.mapEntity entity).1 identifier
        ⟨narrow x, narrow y, narrow z⟩ pitch yaw] ∧ d.context = (c.mapEntity entity).2
    | none => d.packets = [] ∧ d.context = c := by
  intro d
  have hd : d = apply m (some ToClient.spawnEntity) stats c
      (.spawnEntity entity uuid type x y z pitch yaw) := rfl
  rw [hd]
  unfold apply ToClient.spawnEntity
  dsimp only
  cases m.entity? type with
  | none => exact ⟨rfl, rfl⟩
  | some identifier => exact ⟨rfl, rfl⟩

theorem dispatch_removeEntities (entities : List Int32) :
    let d := (standard m).dispatchToClient stats c (.removeEntities entities)
    d.packets = (ToClient.forgetAll c entities).1.map .removeEntity ∧
      d.context = (ToClient.forgetAll c entities).2 :=
  ⟨rfl, rfl⟩

end Dispatch

/-- A packet can only add to what is lost what it strands. -/
theorem tracks_dispatch (m : Mappings) (stats : ConversionStats) {c : SessionContext}
    {shown : List RuntimeId} {Lost : RuntimeId → Prop} {n : Nat} (h : Tracks c shown Lost n)
    (p : Backend.Packet) (room : p.kind = .spawnEntity → n + 2 < UInt64.size) :
    let d := (standard m).dispatchToClient stats c p
    ∃ k ≤ n + [p].countP (·.kind = .spawnEntity),
      Tracks d.context (Client.shownAfter shown d.packets) (fun r => Lost r ∨ p.Strands m c r) k := by
  intro d
  by_cases hjoin : p.kind = .joinGame
  · cases p <;> try cases hjoin
    next entity mode dimension difficulty players view hardcore =>
    obtain ⟨hpackets, hcontext⟩ :=
      dispatch_joinGame m stats c entity mode dimension difficulty players view hardcore
    refine ⟨n, Nat.le_add_right .., ?_⟩
    rw [Client.shownAfter_scenery shown hpackets, hcontext]
    show Tracks _ shown (fun r => Lost r ∨ (ToClient.dimension? dimension).isSome ∧ _) n
    cases (ToClient.dimension? dimension).isSome with
    | true => simpa using h.join entity
    | false => simpa using h
  by_cases hspawn : p.kind = .spawnEntity
  · cases p <;> try cases hspawn
    next entity uuid type x y z pitch yaw =>
    have hdispatch := dispatch_spawnEntity m stats c entity uuid type x y z pitch yaw
    show ∃ k ≤ n + 1, Tracks _ _ (fun r => Lost r ∨ (m.entity? type).isSome ∧ _) k
    cases htype : m.entity? type with
    | none =>
      simp only [htype] at hdispatch
      refine ⟨n, Nat.le_succ n, ?_⟩
      rw [hdispatch.1, hdispatch.2]
      show Tracks c shown _ n
      simpa using h
    | some identifier =>
      simp only [htype] at hdispatch
      rw [hdispatch.1, hdispatch.2]
      show ∃ k ≤ n + 1, Tracks _ ((c.mapEntity entity).1 :: shown) _ k
      simpa using h.spawn entity (room rfl)
  by_cases hremove : p.kind = .removeEntities
  · cases p <;> try cases hremove
    next entities =>
    obtain ⟨hpackets, hcontext⟩ := dispatch_removeEntities m stats c entities
    refine ⟨n, Nat.le_add_right .., ?_⟩
    rw [hpackets, hcontext]
    simpa [Backend.Packet.Strands] using h.forgetAll entities
  · obtain ⟨hpackets, hentities, hnext⟩ := dispatch_aside m stats c hjoin hspawn hremove
    refine ⟨n, Nat.le_add_right .., ?_⟩
    rw [Client.shownAfter_scenery shown hpackets]
    have hstrands (r : RuntimeId) : ¬ p.Strands m c r := fun hr => hr.kind.elim hjoin hspawn
    simp only [hstrands, or_false]
    exact h.congr hentities hnext

/-- One of the packets has left the client with an entity of the number `r` that its session does not know. -/
def Stranded (m : Mappings) (stats : ConversionStats) (c : SessionContext) (ps : List Backend.Packet)
    (r : RuntimeId) : Prop :=
  ∃ h p k, ps = h ++ p :: k ∧ p.Strands m ((standard m).dispatchAll stats c h).context r

theorem not_stranded_nil (m : Mappings) (stats : ConversionStats) (c : SessionContext) (r : RuntimeId) :
    ¬ Stranded m stats c [] r := by
  rintro ⟨_ | _, p, k, heq, -⟩ <;> cases heq

theorem stranded_concat (m : Mappings) (stats : ConversionStats) (c : SessionContext)
    (ps : List Backend.Packet) (p : Backend.Packet) (r : RuntimeId) :
    Stranded m stats c (ps ++ [p]) r ↔
      Stranded m stats c ps r ∨ p.Strands m ((standard m).dispatchAll stats c ps).context r := by
  constructor
  · rintro ⟨h, q, k, heq, hstrands⟩
    rcases List.eq_nil_or_concat k with rfl | ⟨k, z, rfl⟩
    · obtain ⟨rfl, hq⟩ := List.append_inj' heq rfl
      cases hq
      exact .inr hstrands
    · rw [List.concat_eq_append, ← List.cons_append, ← List.append_assoc] at heq
      exact .inl ⟨h, q, k, (List.append_inj' heq rfl).1, hstrands⟩
  · rintro (⟨h, q, k, rfl, hstrands⟩ | hstrands)
    · exact ⟨h, q, k ++ [p], by simp, hstrands⟩
    · exact ⟨ps, p, [], rfl, hstrands⟩

theorem tracks_dispatchAll (m : Mappings) (stats : ConversionStats) {c : SessionContext}
    (fresh : c.entities = {}) (first : c.nextRuntimeId = 2) (ps : List Backend.Packet)
    (few : ps.countP (·.kind = .spawnEntity) ≤ UInt64.size - 2) :
    ∃ n, Tracks ((standard m).dispatchAll stats c ps).context
      (Client.shownAfter [] ((standard m).dispatchAll stats c ps).packets)
      (Stranded m stats c ps) n := by
  -- one packet after the other, of which the first are dispatched already
  suffices honward : ∀ h : List Backend.Packet,
      (h ++ ps).countP (·.kind = .spawnEntity) ≤ UInt64.size - 2 →
      (∃ n ≤ h.countP (·.kind = .spawnEntity), Tracks ((standard m).dispatchAll stats c h).context
        (Client.shownAfter [] ((standard m).dispatchAll stats c h).packets)
        (Stranded m stats c h) n) →
      ∃ n, Tracks ((standard m).dispatchAll stats c (h ++ ps)).context
        (Client.shownAfter [] ((standard m).dispatchAll stats c (h ++ ps)).packets)
        (Stranded m stats c (h ++ ps)) n by
    refine honward [] few ⟨0, Nat.le_refl 0, ?_⟩
    rw [funext fun r => eq_false (not_stranded_nil m stats c r)]
    exact .start fresh first
  clear few
  induction ps with
  | nil =>
    rintro h - ⟨n, -, htracks⟩
    rw [List.append_nil]
    exact ⟨n, htracks⟩
  | cons p ps ih =>
    rintro h few ⟨n, hn, htracks⟩
    rw [List.append_cons] at few ⊢
    have hroom : p.kind = .spawnEntity → n + 2 < UInt64.size := by
      intro hkind
      rw [List.countP_append, List.countP_append, List.countP_singleton, if_pos (by simpa using hkind)] at few
      have : UInt64.size = 18446744073709551616 := rfl
      omega
    obtain ⟨k, hk, hnext⟩ := tracks_dispatch m ((standard m).dispatchAll stats c h).stats htracks p hroom
    refine ih (h ++ [p]) few ⟨k, ?_, ?_⟩
    · rw [List.countP_append]
      omega
    · rw [← Client.shownAfter_append] at hnext
      rw [dispatchAll_concat, funext fun r => propext (stranded_concat m stats c h p r)]
      exact hnext

/-- The client shows what the session has a number for, the player apart, and what has been stranded. So the
two agree if and only if no packet has stranded anything. -/
theorem shows_iff (m : Mappings) (stats : ConversionStats) {c : SessionContext} (fresh : c.entities = {})
    (first : c.nextRuntimeId = 2) (ps : List Backend.Packet)
    (few : ps.countP (·.kind = .spawnEntity) ≤ UInt64.size - 2) :
    let d := (standard m).dispatchAll stats c ps
    (∀ r, r ∈ Client.shownAfter [] d.packets ↔ d.context.Holds r ∨ Stranded m stats c ps r) ∧
      ((∀ r, r ∈ Client.shownAfter [] d.packets ↔ d.context.Holds r) ↔ ∀ r, ¬ Stranded m stats c ps r) := by
  intro d
  obtain ⟨n, htracks⟩ := tracks_dispatchAll m stats fresh first ps few
  refine ⟨htracks.shown_iff, fun hagree r hr => ?_, fun hnone r => ?_⟩
  · exact htracks.apart r hr ((hagree r).mp ((htracks.shown_iff r).mpr (.inr hr)))
  · exact (htracks.shown_iff r).trans (or_iff_left (hnone r))

/-- The cows of the backend have a name at the client. -/
def pasture : Mappings := { entities := [(11, "minecraft:cow")] }

/-- A cow spawns, and then the player joins as that cow. -/
def joinAsCow : List Backend.Packet := [.spawnEntity 7 ⟨0, 0⟩ 11 0 0 0 0 0, .joinGame 7 0 0 0 0 0 false]

theorem shows_iff_cow :
    let c : SessionContext := { id := ⟨1⟩ }
    c.entities = {} ∧ c.nextRuntimeId = 2 ∧
      joinAsCow.countP (·.kind = .spawnEntity) ≤ UInt64.size - 2 ∧
      Stranded pasture {} c joinAsCow ⟨2⟩ ∧
      ⟨2⟩ ∈ Client.shownAfter [] ((standard pasture).dispatchAll {} c joinAsCow).packets := by
  intro c
  have hcow : Stranded pasture {} c joinAsCow ⟨2⟩ := ⟨joinAsCow.take 1, _, [], rfl, rfl, rfl, nofun⟩
  have hfew : joinAsCow.countP (·.kind = .spawnEntity) ≤ UInt64.size - 2 := by decide
  exact ⟨rfl, rfl, hfew, hcow, ((shows_iff pasture {} rfl rfl joinAsCow hfew).1 ⟨2⟩).mpr (.inr hcow)⟩

/-- The client goes on to show the cow, which the session has forgotten. -/
theorem cow_left_behind :
    let d := (standard pasture).dispatchAll {} { id := ⟨1⟩ } joinAsCow
    ¬ ∀ r, r ∈ Client.shownAfter [] d.packets ↔ d.context.Holds r := by
  intro d hagree
  obtain ⟨hother, x, hx⟩ := (hagree ⟨2⟩).mp (by decide)
  have hentities : d.context.entities.byBackend = [(7, .player)] := rfl
  have hplayer := Table.mem_of_get? hx
  rw [hentities, List.mem_singleton] at hplayer
  exact hother (congrArg Prod.snd hplayer)

end Converters
end EditionGateway
