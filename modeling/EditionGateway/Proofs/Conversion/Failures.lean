import EditionGateway.Conversion.Dispatch

/-!
Conversions that fail. Each one checks a packet before it changes anything, and no change can fail, so that
a packet that cannot be converted leaves no trace but its count (`failures_absorbed`).
-/

namespace EditionGateway.Conversion

namespace Update

variable {α β : Type}

/-- It can fail, but changes nothing. -/
def IsCheck (u : Update α) : Prop := ∀ c, (u c).2 = c

/-- It cannot fail. -/
def IsSafe (u : Update α) : Prop := ∀ c, ∃ a c', u c = (.ok a, c')

/-- If it fails, it has changed nothing. -/
def IsAtomic (u : Update α) : Prop := ∀ c e c', u c = (.error e, c') → c' = c

theorem IsCheck.isAtomic {u : Update α} (h : u.IsCheck) : u.IsAtomic := by
  intro c e c' he
  have hc := h c
  rwa [he] at hc

theorem IsSafe.isAtomic {u : Update α} (h : u.IsSafe) : u.IsAtomic := by
  intro c e c' he
  obtain ⟨a, d, hok⟩ := h c
  cases (Prod.mk.inj (he.symm.trans hok)).1

/-- Checks may stand in front of anything. -/
theorem IsCheck.bind {u : Update α} {f : α → Update β} (hu : u.IsCheck) (hf : ∀ a, (f a).IsAtomic) :
    (u >>= f).IsAtomic := by
  intro c e c' he
  have hsame := hu c
  cases hr : u c with
  | mk r d =>
    obtain rfl : d = c := by rwa [hr] at hsame
    cases r with
    | ok a =>
      rw [bind_of_ok hr] at he
      exact hf a d e c' he
    | error e' =>
      rw [bind_of_error hr] at he
      exact (Prod.mk.inj he).2.symm

theorem IsSafe.bind {u : Update α} {f : α → Update β} (hu : u.IsSafe) (hf : ∀ a, (f a).IsSafe) :
    (u >>= f).IsSafe := by
  intro c
  obtain ⟨a, d, hok⟩ := hu c
  rw [bind_of_ok hok]
  exact hf a d

theorem isSafe_ok (r : α × SessionContext) : (ok r).IsSafe := fun _ => ⟨_, _, rfl⟩

theorem isSafe_pure (a : α) : (pure a : Update α).IsSafe := fun _ => ⟨_, _, rfl⟩

theorem isSafe_read (f : SessionContext → α) : (read f).IsSafe := fun _ => ⟨_, _, rfl⟩

theorem isSafe_change (f : SessionContext → α × SessionContext) : (change f).IsSafe :=
  fun _ => ⟨_, _, rfl⟩

theorem isSafe_set (f : SessionContext → SessionContext) : (set f).IsSafe := fun _ => ⟨_, _, rfl⟩

theorem isCheck_error (e : ConversionError) : (error e : Update α).IsCheck := fun _ => rfl

theorem isCheck_given (a? : Option α) (e : ConversionError) : (given a? e).IsCheck := by
  intro c
  cases a? <;> rfl

theorem isCheck_require (p : Prop) [Decidable p] (e : ConversionError) : (require p e).IsCheck := by
  intro c
  unfold require
  split <;> rfl

end Update

/-- A converter that changes nothing unless it converts. -/
def Converter.IsAtomic {source target : Type} (t : Converter source target) : Prop :=
  ∀ m c p, (t m c p).IsAtomic

open Update

namespace ToBackend

theorem text_isAtomic : Converter.IsAtomic text := by
  intro m c p
  unfold text
  split
  · split <;> exact (isSafe_ok _).isAtomic
  · exact (isSafe_ok _).isAtomic

theorem command_isAtomic : Converter.IsAtomic command := by
  intro m c p
  unfold command
  split
  · dsimp only
    split <;> exact (isSafe_ok _).isAtomic
  · exact (isSafe_ok _).isAtomic

theorem movePlayer_isAtomic : Converter.IsAtomic movePlayer := by
  intro m c p
  unfold movePlayer
  split
  · refine (isCheck_require _ _).bind fun _ => IsSafe.isAtomic ?_
    exact (isSafe_set _).bind fun _ => (isSafe_change _).bind fun _ => isSafe_pure _
  · exact (isSafe_ok _).isAtomic

theorem animate_isAtomic : Converter.IsAtomic animate := by
  intro m c p
  unfold animate
  split <;> exact (isSafe_ok _).isAtomic

theorem chunkRadius_isAtomic : Converter.IsAtomic chunkRadius := by
  intro m c p
  unfold chunkRadius
  split <;> exact (isSafe_ok _).isAtomic

theorem respawn_isAtomic : Converter.IsAtomic respawn := by
  intro m c p
  unfold respawn
  split <;> exact (isSafe_ok _).isAtomic

theorem latency_isAtomic : Converter.IsAtomic latency := by
  intro m c p
  unfold latency
  split
  · split
    · exact (isSafe_ok _).isAtomic
    · split
      · exact (isSafe_ok _).isAtomic
      · exact (isCheck_error _).isAtomic
  · exact (isSafe_ok _).isAtomic

theorem converters_isAtomic {k : Client.Kind} {t : ToBackend} (h : (k, t) ∈ converters) :
    Converter.IsAtomic t := by
  simp only [converters, List.mem_cons, Prod.mk.injEq, List.not_mem_nil, or_false] at h
  rcases h with ⟨-, rfl⟩ | ⟨-, rfl⟩ | ⟨-, rfl⟩ | ⟨-, rfl⟩ | ⟨-, rfl⟩ | ⟨-, rfl⟩ | ⟨-, rfl⟩
  · exact text_isAtomic
  · exact command_isAtomic
  · exact movePlayer_isAtomic
  · exact animate_isAtomic
  · exact chunkRadius_isAtomic
  · exact respawn_isAtomic
  · exact latency_isAtomic

end ToBackend

namespace ToClient

theorem chatMessage_isAtomic : Converter.IsAtomic chatMessage := by
  intro m c p
  unfold chatMessage
  split
  · dsimp only
    split <;> exact (isSafe_ok _).isAtomic
  · exact (isSafe_ok _).isAtomic

theorem joinGame_isAtomic : Converter.IsAtomic joinGame := by
  intro m c p
  unfold joinGame
  split
  · refine (isCheck_given _ _).bind fun _ => IsSafe.isAtomic ?_
    exact (isSafe_set _).bind fun _ => (isSafe_read _).bind fun _ => isSafe_pure _
  · exact (isSafe_ok _).isAtomic

theorem keepAlive_isAtomic : Converter.IsAtomic keepAlive := by
  intro m c p
  unfold keepAlive
  split
  · split
    · exact (isSafe_ok _).isAtomic
    · exact (isCheck_error _).isAtomic
  · exact (isSafe_ok _).isAtomic

theorem positionAndLook_isAtomic : Converter.IsAtomic positionAndLook := by
  intro m c p
  unfold positionAndLook
  split
  · refine (isCheck_require _ _).bind fun _ => IsSafe.isAtomic ?_
    exact (isSafe_set _).bind fun _ => (isSafe_set _).bind fun _ => isSafe_pure _
  · exact (isSafe_ok _).isAtomic

theorem timeUpdate_isAtomic : Converter.IsAtomic timeUpdate := by
  intro m c p
  unfold timeUpdate
  split <;> exact (isSafe_ok _).isAtomic

theorem updateHealth_isAtomic : Converter.IsAtomic updateHealth := by
  intro m c p
  unfold updateHealth
  split
  · split
    · exact (isSafe_ok _).isAtomic
    · exact (isCheck_error _).isAtomic
  · exact (isSafe_ok _).isAtomic

theorem spawnEntity_isAtomic : Converter.IsAtomic spawnEntity := by
  intro m c p
  unfold spawnEntity
  split
  · refine (isCheck_given _ _).bind fun _ => IsSafe.isAtomic ?_
    exact (isSafe_change _).bind fun _ => isSafe_pure _
  · exact (isSafe_ok _).isAtomic

theorem removeEntities_isAtomic : Converter.IsAtomic removeEntities := by
  intro m c p
  unfold removeEntities
  split
  · exact ((isSafe_change _).bind fun _ => isSafe_pure _).isAtomic
  · exact (isSafe_ok _).isAtomic

theorem blockChange_isAtomic : Converter.IsAtomic blockChange := by
  intro m c p
  unfold blockChange
  split
  · split
    · exact (isSafe_ok _).isAtomic
    · exact (isCheck_error _).isAtomic
  · exact (isSafe_ok _).isAtomic

theorem soundEffect_isAtomic : Converter.IsAtomic soundEffect := by
  intro m c p
  unfold soundEffect
  split
  · split
    · exact (isSafe_ok _).isAtomic
    · exact (isCheck_error _).isAtomic
  · exact (isSafe_ok _).isAtomic

theorem disconnect_isAtomic : Converter.IsAtomic disconnect := by
  intro m c p
  unfold disconnect
  split <;> exact (isSafe_ok _).isAtomic

theorem converters_isAtomic {k : Backend.Kind} {t : ToClient} (h : (k, t) ∈ converters) :
    Converter.IsAtomic t := by
  simp only [converters, List.mem_cons, Prod.mk.injEq, List.not_mem_nil, or_false] at h
  rcases h with ⟨-, rfl⟩ | ⟨-, rfl⟩ | ⟨-, rfl⟩ | ⟨-, rfl⟩ | ⟨-, rfl⟩ | ⟨-, rfl⟩ | ⟨-, rfl⟩ |
    ⟨-, rfl⟩ | ⟨-, rfl⟩ | ⟨-, rfl⟩ | ⟨-, rfl⟩
  · exact chatMessage_isAtomic
  · exact joinGame_isAtomic
  · exact keepAlive_isAtomic
  · exact positionAndLook_isAtomic
  · exact timeUpdate_isAtomic
  · exact updateHealth_isAtomic
  · exact spawnEntity_isAtomic
  · exact removeEntities_isAtomic
  · exact blockChange_isAtomic
  · exact soundEffect_isAtomic
  · exact disconnect_isAtomic

end ToClient

end EditionGateway.Conversion

namespace EditionGateway

open Conversion

/-- A dispatched packet is counted once. Unless it has been converted, nothing else comes of it. -/
inductive Absorbed {target : Type} (stats : ConversionStats) (c : SessionContext) :
    Dispatched target → Prop
  | converted (out : List target) (c' : SessionContext) :
      Absorbed stats c ⟨out, c', { stats with converted := stats.converted + 1 }⟩
  | unmapped : Absorbed stats c ⟨[], c, { stats with unmapped := stats.unmapped + 1 }⟩
  | failed : Absorbed stats c ⟨[], c, { stats with failed := stats.failed + 1 }⟩

/-- A packet to be dispatched, with what its session remembers at that time. -/
inductive Arrival
  | fromClient (c : SessionContext) (p : Client.Packet)
  | fromBackend (c : SessionContext) (p : Backend.Packet)

/-- The counters hold numbers of packets that sum to `n`. -/
def ConversionStats.Counts (s : ConversionStats) (n : Nat) : Prop :=
  ∃ i j k, i + j + k = n ∧ s = ⟨UInt64.ofNat i, UInt64.ofNat j, UInt64.ofNat k⟩

/-- One more packet is counted, whatever comes of it. -/
theorem Absorbed.counts {target : Type} {stats : ConversionStats} {c : SessionContext}
    {d : Dispatched target} {n : Nat} (h : Absorbed stats c d) (hn : stats.Counts n) :
    d.stats.Counts (n + 1) := by
  obtain ⟨i, j, k, rfl, rfl⟩ := hn
  have hnext (i : Nat) : UInt64.ofNat i + 1 = UInt64.ofNat (i + 1) := (UInt64.ofNat_add i 1).symm
  cases h with
  | converted => exact ⟨i + 1, j, k, by omega, by rw [← hnext]⟩
  | unmapped => exact ⟨i, j + 1, k, by omega, by rw [← hnext]⟩
  | failed => exact ⟨i, j, k + 1, by omega, by rw [← hnext]⟩

namespace Converters

/-- The counters after a packet has been dispatched. -/
def count (t : Converters) (stats : ConversionStats) : Arrival → ConversionStats
  | .fromClient c p => (t.dispatchToBackend stats c p).stats
  | .fromBackend c p => (t.dispatchToClient stats c p).stats

/-- The counters after a run: the packets of all sessions, in any order. -/
def tally (t : Converters) (run : List Arrival) : ConversionStats := run.foldl t.count {}

theorem absorbed_apply {source target : Type} {m : Mappings} {t? : Option (Converter source target)}
    (ht : ∀ t, t? = some t → t.IsAtomic) (stats : ConversionStats) (c : SessionContext) (p : source) :
    Absorbed stats c (apply m t? stats c p) := by
  unfold apply
  split
  · exact .unmapped
  · next t =>
    split
    · exact .converted _ _
    · next e d he =>
      obtain rfl : d = c := ht t rfl m c p c e d he
      split
      · exact .unmapped
      · exact .failed

theorem absorbed_toBackend (m : Mappings) (stats : ConversionStats) (c : SessionContext)
    (p : Client.Packet) : Absorbed stats c ((standard m).dispatchToBackend stats c p) :=
  absorbed_apply (fun _ ht => ToBackend.converters_isAtomic (Table.mem_of_get? ht)) stats c p

theorem absorbed_toClient (m : Mappings) (stats : ConversionStats) (c : SessionContext)
    (p : Backend.Packet) : Absorbed stats c ((standard m).dispatchToClient stats c p) :=
  absorbed_apply (fun _ ht => ToClient.converters_isAtomic (Table.mem_of_get? ht)) stats c p

theorem count_counts (m : Mappings) {stats : ConversionStats} {n : Nat} (hn : stats.Counts n)
    (a : Arrival) : ((standard m).count stats a).Counts (n + 1) := by
  cases a with
  | fromClient c p => exact (absorbed_toBackend m stats c p).counts hn
  | fromBackend c p => exact (absorbed_toClient m stats c p).counts hn

theorem foldl_counts (m : Mappings) (run : List Arrival) {stats : ConversionStats} {n : Nat}
    (hn : stats.Counts n) : (run.foldl (standard m).count stats).Counts (n + run.length) := by
  induction run generalizing stats n with
  | nil => exact hn
  | cons a run ih =>
    have := ih (count_counts m hn a)
    rwa [Nat.add_right_comm] at this

/-- Whatever comes, and whatever its session remembers, a packet raises one counter by one. If it has no
conversion or fails to be converted, nothing is sent for it, and the session remembers what it did before.
After any run, the counters hold numbers that sum to that of the packets. -/
theorem failures_absorbed (m : Mappings) :
    (∀ stats c p, Absorbed stats c ((standard m).dispatchToBackend stats c p)) ∧
      (∀ stats c p, Absorbed stats c ((standard m).dispatchToClient stats c p)) ∧
      ∀ run, ((standard m).tally run).Counts run.length := by
  refine ⟨absorbed_toBackend m, absorbed_toClient m, fun run => ?_⟩
  have start : ({} : ConversionStats).Counts 0 := ⟨0, 0, 0, rfl, rfl⟩
  have := foldl_counts m run start
  rwa [Nat.zero_add] at this

end Converters
end EditionGateway
