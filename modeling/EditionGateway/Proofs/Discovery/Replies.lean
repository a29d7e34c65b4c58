import Mathlib.Data.List.Induction
import EditionGateway.Discovery.Refresher
import EditionGateway.Discovery.Responder
import EditionGateway.Proofs.Session.Accounts

/-!
What a gateway answers to those who look for it, over any history of probes and sessions. The answer
follows the last probe that has succeeded, as far as the settings let it, and failed probes leave no
trace: `replies_follow_last_success`.
-/

namespace EditionGateway

namespace Text

/-- A text of several lines. Each ends with a line feed but the last one, which may do without. -/
inductive Lined : List Char → List String → Prop
  | empty : Lined [] []
  | last {line : List Char} (some : line ≠ []) (whole : '\n' ∉ line) : Lined line [String.ofList line]
  | cons {line rest : List Char} {ls : List String} (whole : '\n' ∉ line) (more : Lined rest ls) :
    Lined (line ++ '\n' :: rest) (String.ofList (dropReturn line) :: ls)

theorem lined_go (line : List Char) (hline : '\n' ∉ line) (cs : List Char) :
    Lined (line.reverse ++ cs) (lines.go line cs) := by
  induction cs generalizing line with
  | nil =>
    rw [lines.go, List.append_nil]
    split
    · next hempty =>
      rw [List.isEmpty_iff.mp hempty]
      exact .empty
    · next hempty =>
      refine .last ?_ fun h => hline (List.mem_reverse.mp h)
      rwa [ne_eq, List.reverse_eq_nil_iff, ← List.isEmpty_iff]
  | cons c r ih =>
    by_cases hc : c = '\n'
    · subst hc
      rw [lines.go]
      exact .cons (fun h => hline (List.mem_reverse.mp h)) (ih [] List.not_mem_nil)
    · have hgo : lines.go line (c :: r) = lines.go (c :: line) r := by
        rw [lines.go]
        exact fun h => hc h
      have hrest := ih (c :: line) (by simpa using ⟨Ne.symm hc, hline⟩)
      rw [hgo]
      rwa [List.reverse_cons, List.append_assoc] at hrest

theorem lined_lines (s : String) : Lined s.toList (lines s) :=
  lined_go [] List.not_mem_nil s.toList

end Text

namespace Responder

/-- The advertisement that fits the last known status of the backend, if there is one, and the number of
sessions. -/
structure Advertises (r : Responder) (status : Option BackendStatus) (sessions : Nat)
    (a : Advertisement) : Prop where
  passedMotd : ∀ s, status = some s → r.ping.passthroughMotd = true →
    Text.Lined s.motd.toList (Text.lines s.motd) ∧ a.motd = (Text.lines s.motd)[0]?.getD "" ∧
      a.subMotd = (Text.lines s.motd)[1]?.getD r.listener.subMotd
  ownMotd : status = none ∨ r.ping.passthroughMotd = false →
    a.motd = r.listener.motd ∧ a.subMotd = r.listener.subMotd
  passedCounts : ∀ s, status = some s → r.ping.passthroughPlayerCounts = true →
    a.onlinePlayers = s.onlinePlayers ∧ a.maxPlayers = s.maxPlayers
  ownCounts : status = none ∨ r.ping.passthroughPlayerCounts = false →
    a.onlinePlayers = .ofNat sessions ∧ a.maxPlayers = r.listener.maxPlayers
  version : a.protocol = Client.Version.newest.protocol ∧ a.version = Client.Version.newest.name
  address : a.serverGuid = r.guid ∧ a.portV4 = r.portNumber ∧ a.portV6 = r.portNumber

theorem lines_passed (r : Responder) (s : BackendStatus) (h : r.ping.passthroughMotd = true) :
    r.lines (some s) =
      ((Text.lines s.motd)[0]?.getD "", (Text.lines s.motd)[1]?.getD r.listener.subMotd) := by
  simp only [lines, h]
  split
  · next heq => rw [heq]; rfl
  · next heq => rw [heq]; rfl
  · next heq => rw [heq]; rfl

theorem lines_own {r : Responder} {status : Option BackendStatus}
    (h : status = none ∨ r.ping.passthroughMotd = false) :
    r.lines status = (r.listener.motd, r.listener.subMotd) := by
  unfold lines
  split
  · next hm =>
    rcases h with h | h
    · cases h
    · cases h.symm.trans hm
  · rfl

theorem advertises (r : Responder) (registry : Registry) :
    r.Advertises registry.status registry.size (r.advertisement registry) where
  passedMotd s hs h := by
    refine ⟨Text.lined_lines s.motd, ?_⟩
    rw [advertisement, hs, r.lines_passed s h]
    exact ⟨rfl, rfl⟩
  ownMotd h := by
    rw [advertisement, lines_own h]
    exact ⟨rfl, rfl⟩
  passedCounts s hs h := by
    rw [advertisement, counts, hs, h]
    exact ⟨rfl, rfl⟩
  ownCounts h := by
    have hcounts : r.counts registry = (.ofNat registry.size, r.listener.maxPlayers) := by
      unfold counts
      split
      · next hp hs =>
        rcases h with h | h
        · cases h.symm.trans hs
        · cases h.symm.trans hp
      · rfl
    rw [advertisement, hcounts]
    exact ⟨rfl, rfl⟩
  version := ⟨rfl, rfl⟩
  address := ⟨rfl, rfl, rfl⟩

end Responder

/-- The loop that probes the backend touches the registry only to take note of what a probe gave that has
ended. -/
theorem RefreshLoop.registry_of_step {l l' : RefreshLoop} (h : l.step = some l') :
    l'.registry = l.registry ∨ ∃ time result, l.running = some (time, result) ∧ time ≤ l.now ∧
      l'.registry = l.registry.noteProbe result := by
  unfold step at h
  split at h
  · next time result hrunning =>
    split at h
    · next hend =>
      obtain rfl := Option.some.inj h
      exact .inr ⟨time, result, hrunning, hend, rfl⟩
    · cases h
  · split at h
    · cases h
    · split at h
      · obtain rfl := Option.some.inj h
        exact .inl rfl
      · obtain rfl := Option.some.inj h
        exact .inl rfl

/-- Something that can change what a gateway answers: a probe of the backend has ended, a session comes
or goes or the gateway shuts down, or the port has become known. -/
inductive Occurrence
  | probed (result : ProbeResult)
  | deed (d : Deed)
  | bound (portNumber : UInt16)

namespace Occurrence

/-- The status that a successful probe gave. -/
def status? : Occurrence → Option BackendStatus
  | probed (.ok s) => some s
  | _ => none

def port? : Occurrence → Option UInt16
  | bound portNumber => some portNumber
  | _ => none

end Occurrence

/-- What a gateway answers with, and the registry that it looks at. -/
structure Beacon where
  responder : Responder
  books : Books := {}

namespace Beacon

def start (listener : ListenerConfig) (ping : PingConfig) (guid : UInt64) : Beacon where
  responder := ⟨listener, ping, guid, listener.portNumber⟩

def registry (b : Beacon) : Registry := b.books.registry

def next (b : Beacon) : Occurrence → Beacon
  | .probed result =>
    let custody := { b.books.custody with registry := b.registry.noteProbe result }
    { b with books := { b.books with custody } }
  | .deed d => { b with books := b.books.next (.deed d) }
  | .bound portNumber => { b with responder := { b.responder with portNumber } }

def after (b : Beacon) (os : List Occurrence) : Beacon := os.foldl next b

/-- The answer to a query; being asked changes nothing. -/
def reply (b : Beacon) : Option String := b.responder.reply b.registry

/-- What the last one gives that gives anything. -/
def latest {α β : Type} (f : α → Option β) (l : List α) : Option β := l.reverse.findSome? f

theorem latest_concat {α β : Type} (f : α → Option β) (l : List α) (a : α) :
    latest f (l ++ [a]) = (f a).or (latest f l) := by
  rw [latest, List.reverse_concat, List.findSome?_cons]
  cases f a <;> rfl

variable (listener : ListenerConfig) (ping : PingConfig) (guid : UInt64)

theorem after_concat (b : Beacon) (os : List Occurrence) (o : Occurrence) :
    b.after (os ++ [o]) = (b.after os).next o := List.foldl_append ..

/-- All that changes about how a gateway answers is the port. -/
theorem responder_after (os : List Occurrence) :
    ((start listener ping guid).after os).responder =
      ⟨listener, ping, guid, (latest (·.port?) os).getD listener.portNumber⟩ := by
  induction os using List.reverseRecOn with
  | nil => rfl
  | append_singleton os o ih =>
    rw [after_concat, latest_concat]
    cases o with
    | bound port => rw [next, ih]; rfl
    | probed result => exact ih
    | deed d => exact ih

/-- The books stay balanced, and the status is that of the last successful probe. -/
theorem registry_after (os : List Occurrence) :
    let b := (start listener ping guid).after os
    b.registry.Balanced b.books.log ∧ b.registry.status = latest (·.status?) os ∧
      (b.registry.shuttingDown = true ↔ .deed .beginShutdown ∈ os) := by
  induction os using List.reverseRecOn with
  | nil => exact ⟨.start, rfl, iff_of_false Bool.false_ne_true List.not_mem_nil⟩
  | append_singleton os o ih =>
    obtain ⟨hb, hstatus, hdown⟩ := ih
    rw [after_concat, latest_concat, List.mem_append, List.mem_singleton, ← hdown, ← hstatus]
    generalize (start listener ping guid).after os = b at hb
    cases o with
    | bound port => exact ⟨hb, rfl, (or_iff_left nofun).symm⟩
    | probed result =>
      cases result with
      | error e => exact ⟨hb, rfl, (or_iff_left nofun).symm⟩
      | ok s => exact ⟨hb.updateStatus s, rfl, (or_iff_left nofun).symm⟩
    | deed d =>
      have heffect := Books.effect_next hb.ordered (.deed d)
      refine ⟨hb.effect heffect, heffect.status, ?_⟩
      change (b.books.next (.deed d)).registry.shuttingDown = true ↔ _
      rw [heffect.shuttingDown, Bool.or_eq_true, Custody.outcome_isShutdown, Occurrence.deed.injEq,
        RegistryCall.deed.injEq, eq_comm (a := d)]
      rfl

/-- A gateway answers until it shuts down. What it says of itself and of its players follows the last
successful probe, or else its own settings and sessions; it would say the same if a failed probe had never
been made. -/
theorem replies_follow_last_success (os : List Occurrence) :
    let b := (start listener ping guid).after os
    (b.reply = none ↔ .deed .beginShutdown ∈ os) ∧
    (.deed .beginShutdown ∉ os → ∃ a, b.reply = some a.encode ∧
      Responder.Advertises ⟨listener, ping, guid, (latest (·.port?) os).getD listener.portNumber⟩
        (latest (·.status?) os) (b.books.log.admissions - b.books.log.removals) a) ∧
    (∀ earlier e later, os = earlier ++ .probed (.error e) :: later →
      ((start listener ping guid).after (earlier ++ later)).reply = b.reply) ∧
    ∀ l l' : RefreshLoop, l.step = some l' → l'.registry = l.registry ∨
      ∃ time result, l.running = some (time, result) ∧ time ≤ l.now ∧
        l'.registry = l.registry.noteProbe result := by
  intro b
  obtain ⟨hbalanced, hstatus, hdown⟩ := registry_after listener ping guid os
  have hreply : b.reply = if b.registry.shuttingDown then none
      else some (b.responder.advertisement b.registry).encode := rfl
  refine ⟨?_, fun h => ⟨b.responder.advertisement b.registry, ?_, ?_⟩, ?_,
    fun l l' => RefreshLoop.registry_of_step⟩
  · rw [← hdown, hreply]
    split
    · next hs => exact iff_of_true rfl hs
    · next hs => exact iff_of_false nofun hs
  · rw [hreply, if_neg fun hs => h (hdown.mp hs)]
  · rw [← responder_after, ← hstatus, ← hbalanced.live, Nat.add_sub_cancel]
    exact b.responder.advertises b.registry
  · intro earlier e later hos
    have hsame : (start listener ping guid).after (earlier ++ later) = b := by
      simp only [b, hos, after, List.foldl_append, List.foldl_cons]
      rfl
    rw [hsame]

/-- The backend has answered with two lines once and then not any more; one session is there. -/
def afternoon : List Occurrence :=
  [.probed (.ok ⟨"Spring\nopen to all", 3, 20, "1.21.1", 767, none⟩), .bound 19133,
    .deed (.register ⟨⟨1⟩, "Steve", "10.0.0.1:40000", 0⟩), .probed (.error (.unreachable "down"))]

theorem replies_follow_last_success_afternoon :
    ∃ a : Advertisement,
      ((start {} { passthroughPlayerCounts := false } 7).after afternoon).reply = some a.encode ∧
      (a.motd = "Spring" ∧ a.subMotd = "open to all") ∧ (a.onlinePlayers = 1 ∧ a.maxPlayers = 100) ∧
      a.portV4 = 19133 := by
  have hopen : .deed .beginShutdown ∉ afternoon := by simp [afternoon]
  obtain ⟨-, hanswer, -⟩ :=
    replies_follow_last_success {} { passthroughPlayerCounts := false } 7 afternoon
  obtain ⟨a, hreply, hads⟩ := hanswer hopen
  obtain ⟨-, hmotd, hsubMotd⟩ := hads.passedMotd _ rfl rfl
  exact ⟨a, hreply, ⟨hmotd, hsubMotd⟩, hads.ownCounts (.inr rfl), hads.address.2.1⟩

end Beacon
end EditionGateway
