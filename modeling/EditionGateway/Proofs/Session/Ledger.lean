import EditionGateway.Proofs.Conversion.Outputs
import EditionGateway.Proofs.Session.Course

/-!
What an established session owes to both sides, by what it has heard: each packet is converted when it
is read, with what is known then about the session, and its outputs go out in order.
-/

namespace EditionGateway

/-- A list is made of two others, each in its order. -/
inductive Merge {α : Type} : List α → List α → List α → Prop
  | nil : Merge [] [] []
  | left {as bs cs : List α} (a : α) (h : Merge as bs cs) : Merge (as ++ [a]) bs (cs ++ [a])
  | right {as bs cs : List α} (b : α) (h : Merge as bs cs) : Merge as (bs ++ [b]) (cs ++ [b])

/-- What has been sent of some groups of things, in order, is all of them, or all but an end of the last
group. -/
def CutInLast {α : Type} (groups : List (List α)) (sent : List α) : Prop :=
  groups.dropLast.flatten <+: sent ∧ sent <+: groups.flatten

/-- What has been sent and what is still to be sent are all the groups, and the latter is an end of
the last one. -/
structure Conveyed {α : Type} (groups : List (List α)) (sent pending : List α) : Prop where
  all : sent ++ pending = groups.flatten
  last : pending <:+ groups.getLast?.getD []

namespace Conveyed

variable {α : Type} {groups : List (List α)} {sent pending : List α}

theorem nil : Conveyed ([] : List (List α)) [] [] := ⟨rfl, List.nil_suffix⟩

/-- The next group begins when all others have been sent. -/
theorem push (h : Conveyed groups sent []) (group : List α) :
    Conveyed (groups ++ [group]) sent group where
  all := by
    have hall := h.all
    rw [List.append_nil] at hall
    simp [hall]
  last := by simp

theorem send {a : α} (h : Conveyed groups sent (a :: pending)) :
    Conveyed groups (sent ++ [a]) pending where
  all := by
    rw [← h.all, List.append_assoc]
    rfl
  last := (List.suffix_cons a pending).trans h.last

theorem cutInLast (h : Conveyed groups sent pending) : CutInLast groups sent := by
  refine ⟨?_, ⟨pending, h.all⟩⟩
  rcases List.eq_nil_or_concat groups with rfl | ⟨init, last, rfl⟩
  · exact List.nil_prefix
  · obtain ⟨x, hx⟩ : pending <:+ last := by simpa using h.last
    -- What is pending is an end of the last group, so all before it has been sent.
    have hall : sent ++ pending = (init.flatten ++ x) ++ pending := by
      rw [h.all, List.append_assoc, hx]
      simp
    rw [List.append_cancel_right hall]
    simp

end Conveyed

/-- What becomes of a client packet of an established session. -/
def Converters.upward (t : Converters) (c : SessionContext) (p : Client.Packet) :
    List Backend.Packet × SessionContext :=
  let d := t.dispatchToBackend {} c p
  (d.packets, d.context)

/-- What becomes of a backend packet. -/
def Converters.downward (t : Converters) (c : SessionContext) (p : Backend.Packet) :
    List Client.Packet × SessionContext :=
  let d := t.dispatchToClient {} c p
  (d.packets, d.context)

/-- The radius that a client wants to see. -/
def SessionContext.chunkRadius (c : SessionContext) : Int32 :=
  (c.clientData.bind (·.viewDistance)).getD Session.defaultChunkRadius

/-- What has to be sent, in groups that each come of one packet or command. -/
structure Ledger where
  context : SessionContext
  toBackend : List (List Backend.Packet)
  fromBackend : List (List Client.Packet) := []
  notices : List (List Client.Packet) := []

namespace Ledger

/-- What is owed to the backend as soon as a session is established. -/
def start (t : Converters) (c : SessionContext) : Ledger :=
  let (packets, context) := t.upward c (.requestChunkRadius c.chunkRadius)
  { context, toBackend := [packets] }

/-- What is owed after something has been noted. Packets are converted in the order in which they are
heard of. -/
def enter (t : Converters) (l : Ledger) : Note → Ledger
  | .heard (.client (.ok p)) =>
    if p.kind = .disconnect then l
    else
      let (packets, context) := t.upward l.context p
      { l with context, toBackend := l.toBackend ++ [packets] }
  | .heard (.backend (.ok p)) =>
    if p.kind = .disconnect then l
    else
      let (packets, context) := t.downward l.context p
      { l with context, fromBackend := l.fromBackend ++ [packets] }
  | .heard (.command (.sendMessage text)) =>
    { l with notices := l.notices ++ [[.systemText text]] }
  | _ => l

/-- What a session owes that was established with this context, by the notes since then. -/
def ofNotes (t : Converters) (c : SessionContext) (n : Notes) : Ledger := n.foldl (enter t) (start t c)

@[simp] theorem ofNotes_concat (t : Converters) (c : SessionContext) (n : Notes) (x : Note) :
    ofNotes t c (n ++ [x]) = enter t (ofNotes t c n) x := by
  simp [ofNotes]

theorem ofNotes_shown (t : Converters) (c : SessionContext) (n : Notes) (s s' : Session) :
    ofNotes t c (n ++ s.shown s') = ofNotes t c n := by
  rcases s.shown_eq s' with hs | hs
  · rw [hs, List.append_nil]
  · rw [hs, ofNotes_concat]
    rfl

/-- What every client packet is converted to comes after what has been owed to the backend before. -/
theorem toBackend_grows (t : Converters) (l : Ledger) (x : Note) :
    l.toBackend <+: (enter t l x).toBackend := by
  unfold enter
  split
  · split
    · exact List.prefix_refl _
    · exact List.prefix_append _ _
  · split
    · exact List.prefix_refl _
    · exact List.prefix_refl _
  · exact List.prefix_refl _
  · exact List.prefix_refl _

/-- The first thing that is owed to the backend are the settings of the client. -/
theorem toBackend_settings (m : Mappings) (c : SessionContext) (n : Notes) :
    [[.clientSettings ((c.clientData.map (·.locale)).getD (Text.lowerAscii ClientData.defaultLanguage))
      (Conversion.ToBackend.clampView c.chunkRadius) true .main]] <+:
        (ofNotes (.standard m) c n).toBackend := by
  suffices hrun : ∀ l : Ledger, l.toBackend <+: (n.foldl (enter (.standard m)) l).toBackend from
    hrun (start (.standard m) c)
  induction n with
  | nil => exact fun l => List.prefix_refl _
  | cons x n ih => exact fun l => (toBackend_grows _ l x).trans (ih _)

/-- Everything that is owed to the backend belongs to the play phase. -/
theorem toBackend_plays (m : Mappings) (c : SessionContext) (n : Notes) :
    ∀ packets ∈ (ofNotes (.standard m) c n).toBackend, ∀ q ∈ packets, q.phase = .play := by
  have hup (c : SessionContext) (p : Client.Packet) :
      ∀ q ∈ ((Converters.standard m).upward c p).1, q.phase = .play :=
    Converters.standard_plays m {} c p
  suffices hrun : ∀ l : Ledger, (∀ packets ∈ l.toBackend, ∀ q ∈ packets, q.phase = .play) →
      ∀ packets ∈ (n.foldl (enter (.standard m)) l).toBackend, ∀ q ∈ packets, q.phase = .play by
    apply hrun
    intro packets hp
    rw [List.mem_singleton.mp hp]
    exact hup c (.requestChunkRadius c.chunkRadius)
  induction n with
  | nil => exact fun l hl => hl
  | cons x n ih =>
    intro l hl
    apply ih
    unfold enter
    split
    · split
      · exact hl
      · intro packets hp
        rcases List.mem_append.mp hp with hp | hp
        · exact hl packets hp
        · rw [List.mem_singleton.mp hp]
          exact hup _ _
    · split
      · exact hl
      · exact hl
    · exact hl
    · exact hl

end Ledger
end EditionGateway
