import EditionGateway.Proofs.Session.Ledger

/-!
What an established session has sent and what it still has to send, by the notes about it: how each note
changes it.
-/

namespace EditionGateway

open Notes

/-- The packets that have been sent to the client in a lane. -/
def Notes.sentIn (lane : Lane) (n : Notes) : List Client.Packet := n.filterMap fun
  | .did l (.tell p) (.ok _) => if l = lane then some p else none
  | _ => none

@[simp] theorem Notes.sentIn_append (lane : Lane) (n m : Notes) :
    sentIn lane (n ++ m) = sentIn lane n ++ sentIn lane m :=
  List.filterMap_append

/-- What has been sent: to the backend, to the client for the backend, to the client for others, and to
the client in all. -/
structure Sent where
  asked : List Backend.Packet
  fromBackend : List Client.Packet
  notices : List Client.Packet
  told : List Client.Packet

def Notes.sent (n : Notes) : Sent := ⟨asked n, sentIn .toClient n, sentIn .commands n, told n⟩

@[simp] theorem Notes.sent_append (n m : Notes) : sent (n ++ m) =
    ⟨(sent n).asked ++ (sent m).asked, (sent n).fromBackend ++ (sent m).fromBackend,
      (sent n).notices ++ (sent m).notices, (sent n).told ++ (sent m).told⟩ := by
  simp [sent]

/-- What has been sent and what is still to be sent are what is owed. -/
structure Account (l : Ledger) (s : Sent) (up : List Backend.Packet)
    (down notices : List Client.Packet) : Prop where
  up : Conveyed l.toBackend s.asked up
  down : Conveyed l.fromBackend s.fromBackend down
  notices : Conveyed l.notices s.notices notices
  merge : Merge s.fromBackend s.notices s.told

/-- All that has been sent is what was owed, up to where it was cut short. -/
structure Paid (l : Ledger) (s : Sent) : Prop where
  up : CutInLast l.toBackend s.asked
  down : CutInLast l.fromBackend s.fromBackend
  notices : CutInLast l.notices s.notices
  merge : Merge s.fromBackend s.notices s.told

namespace Account

variable {l : Ledger} {s : Sent} {up : List Backend.Packet} {down notices : List Client.Packet}

theorem paid (h : Account l s up down notices) : Paid l s :=
  ⟨h.up.cutInLast, h.down.cutInLast, h.notices.cutInLast, h.merge⟩

theorem ask {p : Backend.Packet} (h : Account l s (p :: up) down notices) :
    Account l { s with asked := s.asked ++ [p] } up down notices :=
  { h with up := h.up.send }

theorem tell {p : Client.Packet} (h : Account l s up (p :: down) notices) :
    Account l { s with fromBackend := s.fromBackend ++ [p], told := s.told ++ [p] } up down notices :=
  { h with down := h.down.send, merge := h.merge.left p }

theorem notify {p : Client.Packet} (h : Account l s up down (p :: notices)) :
    Account l { s with notices := s.notices ++ [p], told := s.told ++ [p] } up down notices :=
  { h with notices := h.notices.send, merge := h.merge.right p }

/-- What comes of a packet is owed when all before it has been sent. -/
theorem oweBackend (h : Account l s [] down notices) (ps : List Backend.Packet)
    (context : SessionContext) :
    Account { l with context, toBackend := l.toBackend ++ [ps] } s ps down notices :=
  { h with up := h.up.push ps }

theorem oweClient (h : Account l s up [] notices) (ps : List Client.Packet)
    (context : SessionContext) :
    Account { l with context, fromBackend := l.fromBackend ++ [ps] } s up ps notices :=
  { h with down := h.down.push ps }

theorem oweNotice (h : Account l s up down []) (ps : List Client.Packet) :
    Account { l with notices := l.notices ++ [ps] } s up down ps :=
  { h with notices := h.notices.push ps }

end Account

/-- What a session has sent and what it still has to send are what it owes by these notes. -/
def Owes (t : Converters) (c : SessionContext) (m : Notes) (up : List Backend.Packet)
    (down notices : List Client.Packet) : Prop :=
  Account (Ledger.ofNotes t c m) (sent m) up down notices

/-- A note of something that neither side hears of. -/
structure Note.IsMute (x : Note) : Prop where
  enter : ∀ t l, Ledger.enter t l x = l
  sent : sent [x] = ⟨[], [], [], []⟩

namespace Note

theorem isMute_became (l : Lifecycle) : (became l).IsMute := ⟨fun _ _ => rfl, rfl⟩

theorem isMute_heard {e : Event} (he : ∀ t l, Ledger.enter t l (.heard e) = l) : (heard e).IsMute :=
  ⟨he, rfl⟩

theorem isMute_failed (lane : Lane) (a : Act) (e : GatewayError) : (did lane a (.error e)).IsMute := by
  cases a <;> exact ⟨fun _ _ => rfl, rfl⟩

theorem isMute_did {a : Act} (ha : a.kind ≠ .tell ∧ a.kind ≠ .ask) (lane : Lane)
    (r : Except GatewayError Unit) : (did lane a r).IsMute := by
  cases a <;> first
    | exact ⟨fun _ _ => rfl, rfl⟩
    | exact absurd rfl ha.1
    | exact absurd rfl ha.2

end Note

namespace Owes

variable {t : Converters} {c : SessionContext} {m : Notes} {up : List Backend.Packet}
  {down notices : List Client.Packet}

theorem start (t : Converters) (c : SessionContext) :
    Owes t c [] (t.upward c (.requestChunkRadius c.chunkRadius)).1 [] [] where
  up := Conveyed.nil.push _
  down := .nil
  notices := .nil
  merge := .nil

/-- A note adds to what is owed and to what has been sent. -/
theorem note {x : Note} {s : Sent} (hx : sent [x] = s)
    (h : Account (Ledger.enter t (Ledger.ofNotes t c m) x)
      ⟨(sent m).asked ++ s.asked, (sent m).fromBackend ++ s.fromBackend, (sent m).notices ++ s.notices,
        (sent m).told ++ s.told⟩ up down notices) :
    Owes t c (m ++ [x]) up down notices := by
  rw [Owes, Ledger.ofNotes_concat, sent_append, hx]
  exact h

theorem mute (h : Owes t c m up down notices) {x : Note} (hx : x.IsMute) :
    Owes t c (m ++ [x]) up down notices := by
  apply note hx.sent
  rw [hx.enter]
  simp only [List.append_nil]
  exact h

theorem shown (h : Owes t c m up down notices) (s s' : Session) :
    Owes t c (m ++ s.shown s') up down notices := by
  rcases s.shown_eq s' with hs | hs
  · rw [hs, List.append_nil]
    exact h
  · rw [hs]
    exact h.mute (Note.isMute_became _)

/-- A packet has been sent to the backend. -/
theorem asked {p : Backend.Packet} (h : Owes t c m (p :: up) down notices) (lane : Lane) (u : Unit) :
    Owes t c (m ++ [.did lane (.ask p) (.ok u)]) up down notices := by
  apply note (s := ⟨[p], [], [], []⟩) rfl
  simp only [List.append_nil]
  exact Account.ask h

/-- A conversion of the backend's words has been sent to the client. -/
theorem toldClient {p : Client.Packet} (h : Owes t c m up (p :: down) notices) (u : Unit) :
    Owes t c (m ++ [.did .toClient (.tell p) (.ok u)]) up down notices := by
  apply note (s := ⟨[], [p], [], [p]⟩) rfl
  simp only [List.append_nil]
  exact Account.tell h

/-- A notice has been sent to the client. -/
theorem notified {p : Client.Packet} (h : Owes t c m up down (p :: notices)) (u : Unit) :
    Owes t c (m ++ [.did .commands (.tell p) (.ok u)]) up down notices := by
  apply note (s := ⟨[], [], [p], [p]⟩) rfl
  simp only [List.append_nil]
  exact Account.notify h

/-- What has been heard has not been sent. -/
theorem heard {e : Event}
    (h : Account (Ledger.enter t (Ledger.ofNotes t c m) (.heard e)) (sent m) up down notices) :
    Owes t c (m ++ [.heard e]) up down notices := by
  apply note (s := ⟨[], [], [], []⟩) rfl
  simp only [List.append_nil]
  exact h

/-- A packet of the client is converted when all that was owed to the backend has been sent. -/
theorem heardClient (h : Owes t c m [] down notices) {p : Client.Packet}
    (hp : p.kind ≠ .disconnect) : Owes t c (m ++ [.heard (.client (.ok p))])
      (t.upward (Ledger.ofNotes t c m).context p).1 down notices := by
  apply heard
  rw [Ledger.enter, if_neg hp]
  exact Account.oweBackend h _ _

/-- So is a packet of the backend. -/
theorem heardBackend (h : Owes t c m up [] notices) {p : Backend.Packet}
    (hp : p.kind ≠ .disconnect) : Owes t c (m ++ [.heard (.backend (.ok p))]) up
      (t.downward (Ledger.ofNotes t c m).context p).1 notices := by
  apply heard
  rw [Ledger.enter, if_neg hp]
  exact Account.oweClient h _ _

/-- A notice is taken when the one before it has been sent. -/
theorem heardCommand (h : Owes t c m up down []) (text : String) :
    Owes t c (m ++ [.heard (.command (.sendMessage text))]) up down [.systemText text] := by
  apply heard
  exact Account.oweNotice h _

end Owes

namespace Paid

variable {t : Converters} {c : SessionContext} {m : Notes} {told : List Client.Packet}

/-- An act of a teardown changes nothing about what has been paid. -/
theorem did (h : Paid (Ledger.ofNotes t c m) { sent m with told }) {a : Act} (ha : a.kind ≠ .ask)
    (r : Except GatewayError Unit) : Paid (Ledger.ofNotes t c (m ++ [.did .main a r]))
      { sent (m ++ [.did .main a r]) with told } := by
  have hsent : (sent [.did .main a r]).asked = [] ∧ (sent [.did .main a r]).fromBackend = [] ∧
      (sent [.did .main a r]).notices = [] := by
    cases a <;> cases r <;> first | exact ⟨rfl, rfl, rfl⟩ | exact absurd rfl ha
  rw [Ledger.ofNotes_concat, sent_append, hsent.1, hsent.2.1, hsent.2.2]
  simp only [List.append_nil]
  exact h

theorem shown (h : Paid (Ledger.ofNotes t c m) { sent m with told }) (s s' : Session) :
    Paid (Ledger.ofNotes t c (m ++ s.shown s')) { sent (m ++ s.shown s') with told } := by
  rcases s.shown_eq s' with hs | hs
  · rw [hs, List.append_nil]
    exact h
  · have hmute := Note.isMute_became s'.lifecycle
    rw [hs, Ledger.ofNotes_concat, hmute.enter, sent_append, hmute.sent]
    simp only [List.append_nil]
    exact h

end Paid

end EditionGateway
