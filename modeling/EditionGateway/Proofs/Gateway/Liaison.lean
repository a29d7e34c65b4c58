import EditionGateway.Gateway.Host
import EditionGateway.Gateway.Loopback
import EditionGateway.Proofs.Datagram.Sending
import EditionGateway.Proofs.Gateway.Chronicle
import EditionGateway.Proofs.Session.Settings
import Mathlib.Data.List.Induction

/-!
A session together with its link to the client. What the session has told goes out over a datagram
connection; the threshold of the connection is set once, right after the settings have gone out, and each
packet is framed by what the packets before it have announced.
-/

namespace EditionGateway

open Datagram Notes

/-- A threshold that settings can announce is far below the largest one. -/
theorem Threshold.clamp_toNat (u : UInt16) : Threshold.clamp (some u.toNat) = some u.toNat := by
  have hlt := u.toNat_lt
  show (some (min u.toNat _) : Threshold) = some u.toNat
  rw [Nat.min_eq_left (by omega)]

namespace Datagram.Connection

theorem keeps_send (c : Connection) (p : Bytes) :
    (c.send p).2.threshold = c.threshold ∧ (c.send p).2.compression = c.compression := by
  unfold send
  split
  · exact ⟨rfl, rfl⟩
  · dsimp only
    split
    · exact ⟨rfl, rfl⟩
    · split <;> exact ⟨rfl, rfl⟩

end Datagram.Connection

namespace Client.Packet

/-- The threshold that settings announce. -/
def announces? : Packet → Option UInt16
  | .networkSettings t => some t
  | _ => none

/-- The threshold after a packet, if it was `t` before it. -/
def switch (t : Threshold) (p : Packet) : Threshold := (p.announces?.map (·.toNat)).or t

theorem announces?_eq_none_iff {p : Packet} : p.announces? = none ↔ p.kind ≠ .networkSettings := by
  cases p <;> simp [announces?, kind]

end Client.Packet

/-- A packet for the client, and the fragments that it has gone out in. -/
structure Mail where
  packet : Client.Packet
  fragments : List Fragment

namespace Mail

/-- What the fragments carry. -/
def body (x : Mail) : Bytes := x.fragments.flatMap (·.payload)

def posted (number : Nat) (x : Mail) : Posted := ⟨number, x.body, x.fragments⟩

/-- The fragments carry what is sent for the packet under this threshold. -/
def Carries (x : Mail) (z : Compression) (t : Threshold) : Prop :=
  ∃ b, Client.Packet.shape.encode x.packet = .ok b ∧ x.body = encodeBody z t b

/-- The fragments are those of the packet with this number. -/
def IsCut (x : Mail) (seq : UInt32) : Prop := ∃ split parts, (x.posted 0).Cut seq split parts

/-- What packets announce, one after another. -/
def announcements (xs : List Mail) : List UInt16 := xs.filterMap (·.packet.announces?)

/-- The threshold after such packets, if it was `t` before them. -/
def announced (t : Threshold) (xs : List Mail) : Threshold := xs.foldl (fun t x => x.packet.switch t) t

/-- Each packet is sent under the threshold that has been announced before it. -/
def Framed (z : Compression) : Threshold → List Mail → Prop
  | _, [] => True
  | t, x :: xs => x.Carries z t ∧ Framed z (x.packet.switch t) xs

theorem announcements_append (xs ys : List Mail) :
    announcements (xs ++ ys) = announcements xs ++ announcements ys :=
  List.filterMap_append

theorem announcements_eq_nil_iff {xs : List Mail} :
    announcements xs = [] ↔ ∀ x ∈ xs, x.packet.kind ≠ .networkSettings := by
  simp only [announcements, List.filterMap_eq_nil_iff, Client.Packet.announces?_eq_none_iff]

theorem announced_eq (t : Threshold) (xs : List Mail) :
    announced t xs = ((announcements xs).getLast?.map (·.toNat)).or t := by
  induction xs using List.reverseRecOn with
  | nil => rfl
  | append_singleton xs x ih =>
    rw [announced, List.foldl_append, List.foldl_cons, List.foldl_nil, ← announced, ih, announcements_append]
    cases h : x.packet.announces? with
    | none => simp [announcements, Client.Packet.switch, h]
    | some u => simp [announcements, Client.Packet.switch, h]

theorem framed_append (z : Compression) (t : Threshold) (xs ys : List Mail) :
    Framed z t (xs ++ ys) ↔ Framed z t xs ∧ Framed z (announced t xs) ys := by
  induction xs generalizing t with
  | nil => simp [Framed, announced]
  | cons x xs ih => simp [Framed, announced, ih, and_assoc]

theorem isCut_fragmentsOf (p : Client.Packet) {seq : UInt32} {split : UInt16} {parts : List Bytes}
    (pos : 0 < parts.length) (few : parts.length ≤ maxFragments) :
    (⟨p, fragmentsOf seq split parts⟩ : Mail).body = parts.flatten ∧
      (⟨p, fragmentsOf seq split parts⟩ : Mail).IsCut seq := by
  have hbody : (⟨p, fragmentsOf seq split parts⟩ : Mail).body = parts.flatten := by
    simp [body, fragmentsOf, List.flatMap_def, Function.comp_def, List.zipIdx_map_fst]
  exact ⟨hbody, split, parts, rfl, hbody.symm, pos, few⟩

end Mail

namespace Course

theorem next_of_admits {c : Course} {e : Event} (ha : c.session.admits e) (now : Nat) :
    c.next now e =
      { session := c.session.handle now e
        notes := c.notes ++ c.session.noted e ++ c.session.shown (c.session.handle now e) } :=
  if_pos ha

theorem session_next {c : Course} {e : Event} (ha : c.session.admits e) (now : Nat) :
    (c.next now e).session = c.session.handle now e := by
  rw [next_of_admits ha]

theorem next_of_not_admits {c : Course} {e : Event} (ha : ¬ c.session.admits e) (now : Nat) :
    c.next now e = c :=
  if_neg ha

end Course

/-- A session and its link to the client, with all that has gone out over the link. -/
structure Liaison where
  course : Course
  link : Connection
  sent : List Mail := []

namespace Liaison

/-- A new session and its link. -/
def start (config : GatewayConfig) (m : Mappings) (id : SessionId) (now : Nat) (link : Connection) :
    Liaison where
  course := .start config (.standard m) id now
  link := link

/-- A packet goes out, if it can be encoded and the link takes it. -/
def tell (l : Liaison) (p : Client.Packet) : Except GatewayError Unit × Liaison :=
  match Client.Packet.shape.encode p with
  | .error e => (.error (.codec e), l)
  | .ok b =>
    match l.link.send b with
    | (.ok fragments, link) => (.ok (), { l with link, sent := l.sent ++ [⟨p, fragments⟩] })
    | (.error e, link) => (.error (.clientLink e), { l with link })

/-- Does something for the session. What is not done on the link has the result `r`. -/
def perform (l : Liaison) (r : Except GatewayError Unit) : Act → Except GatewayError Unit × Liaison
  | .tell p => l.tell p
  | .compress t => (.ok (), { l with link := l.link.setThreshold (some t.toNat) })
  | .closeClient => (.ok (), { l with link := { l.link with closed := true } })
  | _ => (r, l)

/-- What becomes of them with an event. Nothing comes between the settings and the threshold: it is set
at once when it is next. -/
def next (l : Liaison) (now : Nat) : Event → Liaison
  | .done lane r =>
    match l.course.session.next? lane with
    | none => l
    | some a =>
      let (r, l) := l.perform r a
      { l with course := l.course.next now (.done lane r) }
  | e =>
    match l.course.session.todo with
    | .compress _ :: _ => l
    | _ => { l with course := l.course.next now e }

def after (l : Liaison) (es : List (Nat × Event)) : Liaison := es.foldl (fun l o => l.next o.1 o.2) l

theorem after_append (l : Liaison) (es fs : List (Nat × Event)) : l.after (es ++ fs) = (l.after es).after fs :=
  List.foldl_append

/-- What can come of an act. -/
inductive Performed (l : Liaison) : Act → Except GatewayError Unit → Liaison → Prop
  | told (p : Client.Packet) (fragments : List Fragment) (link : Connection)
      (carries : Mail.Carries ⟨p, fragments⟩ l.link.compression l.link.threshold)
      (cut : Mail.IsCut ⟨p, fragments⟩ l.link.nextSeq) (nextSeq : link.nextSeq = l.link.nextSeq + 1)
      (threshold : link.threshold = l.link.threshold) (compression : link.compression = l.link.compression) :
      Performed l (.tell p) (.ok ()) { l with link, sent := l.sent ++ [⟨p, fragments⟩] }
  | refused (p : Client.Packet) (e : LinkError) (link : Connection)
      (threshold : link.threshold = l.link.threshold) (compression : link.compression = l.link.compression) :
      Performed l (.tell p) (.error (.clientLink e)) { l with link }
  | unwritten (p : Client.Packet) (e : CodecError) : Performed l (.tell p) (.error (.codec e)) l
  | compressed (t : UInt16) :
      Performed l (.compress t) (.ok ()) { l with link := l.link.setThreshold (some t.toNat) }
  | other (a : Act) (r : Except GatewayError Unit) (link : Connection)
      (kind : a.kind ≠ .tell ∧ a.kind ≠ .compress) (nextSeq : link.nextSeq = l.link.nextSeq)
      (threshold : link.threshold = l.link.threshold) (compression : link.compression = l.link.compression) :
      Performed l a r { l with link }

theorem performed (l : Liaison) (r : Except GatewayError Unit) (a : Act) :
    l.Performed a (l.perform r a).1 (l.perform r a).2 := by
  cases a with
  | tell p =>
    show l.Performed _ (l.tell p).1 (l.tell p).2
    unfold tell
    cases henc : Client.Packet.shape.encode p with
    | error e => exact .unwritten p e
    | ok b =>
      dsimp only
      have hkeeps := l.link.keeps_send b
      obtain ⟨err, d, hsend, -⟩ | ⟨parts, hsend, hflat, hpos, hfew, -⟩ := l.link.send_cases b
      · rw [hsend] at hkeeps ⊢
        exact .refused p err d hkeeps.1 hkeeps.2
      · rw [hsend]
        obtain ⟨hbody, hcut⟩ := Mail.isCut_fragmentsOf p hpos hfew
        exact .told p _ _ ⟨b, henc, hbody.trans hflat⟩ hcut rfl rfl rfl
  | compress t => exact .compressed t
  | closeClient => exact .other _ _ _ (by simp [Act.kind]) rfl rfl rfl
  | _ => exact .other _ _ l.link (by simp [Act.kind]) rfl rfl rfl

theorem Performed.course {l l' : Liaison} {a : Act} {r : Except GatewayError Unit}
    (h : l.Performed a r l') : l'.course = l.course := by
  cases h <;> rfl

/-- A gateway does the same for a session whose client has this connection. -/
theorem perform_loopback (l : Liaison) (h : Host Loopback) (id : SessionId) (seat : Seat) {c : ConnectionId}
    (known : h.network.connections.get? id = some c)
    (link : h.network.endpoint.connections.get? c = some l.link) (a : Act) :
    (h.perform id seat a).1 = (l.perform (h.perform id seat a).1 a).1 ∧
      (h.perform id seat a).2.network.endpoint.connections.get? c =
        some (l.perform (h.perform id seat a).1 a).2.link := by
  have hmodify (f : Connection → Connection) :
      (h.network.endpoint.connections.modify c f).get? c = some (f l.link) := by
    rw [Table.get?_modify, if_pos rfl, link]
    rfl
  have hpair {α : Type} [Inhabited α] (f : StreamPair → α × StreamPair) :
      (h.network.atPair id f).2.endpoint = h.network.endpoint := by
    unfold Loopback.atPair Loopback.atLink
    split <;> rfl
  cases a with
  | tell p =>
    show (h.transmit Client.Packet.shape p (Loopback.sendClient id) .clientLink).1 = (l.tell p).1 ∧
      (h.transmit Client.Packet.shape p (Loopback.sendClient id) .clientLink).2.network.endpoint.connections.get?
        c = some (l.tell p).2.link
    unfold Host.transmit tell
    cases Client.Packet.shape.encode p with
    | error e => exact ⟨rfl, link⟩
    | ok b =>
      simp only [Loopback.sendClient, known, Endpoint.send, link]
      rcases l.link.send b with ⟨e | fragments, d⟩ <;> exact ⟨rfl, hmodify fun _ => d⟩
  | compress t =>
    refine ⟨rfl, ?_⟩
    show (h.network.onConnection id fun c e => (none, e.setThreshold c (some t.toNat))).endpoint.connections.get?
      c = some (l.link.setThreshold (some t.toNat))
    simp only [Loopback.onConnection, known]
    exact hmodify (·.setThreshold (some t.toNat))
  | closeClient =>
    refine ⟨rfl, ?_⟩
    show (h.network.onConnection id fun c e => e.close c).endpoint.connections.get? c =
      some { l.link with closed := true }
    simp only [Loopback.onConnection, known, Endpoint.close, link]
    split
    · next hclosed =>
      refine link.trans (congrArg some ?_)
      rw [← hclosed]
    · exact hmodify ({ · with closed := true })
  | connect d =>
    refine ⟨rfl, ?_⟩
    show (h.network.openLink id d).endpoint.connections.get? c = some l.link
    unfold Loopback.openLink
    split <;> exact link
  | closeBackend =>
    refine ⟨rfl, ?_⟩
    show (h.network.atPair id _).2.endpoint.connections.get? c = some l.link
    rw [hpair]
    exact link
  | ask p =>
    refine ⟨rfl, ?_⟩
    show (h.transmit Backend.Packet.shape p (Network.sendBackend id) .backendLink).2.network.endpoint.connections.get?
      c = some l.link
    unfold Host.transmit
    split
    · exact link
    · show (h.network.atPair id _).2.endpoint.connections.get? c = some l.link
      rw [hpair]
      exact link
  | register u =>
    refine ⟨rfl, ?_⟩
    show (h.perform id seat (.register u)).2.network.endpoint.connections.get? c = some l.link
    unfold Host.perform
    dsimp only
    split <;> exact link
  | deregister =>
    refine ⟨rfl, ?_⟩
    show (h.perform id seat .deregister).2.network.endpoint.connections.get? c = some l.link
    unfold Host.perform
    dsimp only
    split <;> exact link
  | stopListening => exact ⟨rfl, link⟩
  | enter s => exact ⟨rfl, link⟩

/-- What a gateway does for its session, and tells it then, is one step here. -/
theorem next_loopback (l : Liaison) (h : Host Loopback) (id : SessionId) (seat : Seat) {c : ConnectionId}
    (known : h.network.connections.get? id = some c)
    (link : h.network.endpoint.connections.get? c = some l.link) (same : l.course.session = seat.session)
    {lane : Lane} {a : Act} (hn : seat.session.next? lane = some a) :
    let r := (h.perform id seat a).1
    (l.next h.now (.done lane r)).course.session = seat.session.handle h.now (.done lane r) ∧
      (h.perform id seat a).2.network.endpoint.connections.get? c =
        some (l.next h.now (.done lane r)).link := by
  intro r
  obtain ⟨hresult, hlink⟩ := l.perform_loopback h id seat known link a
  have hcourse := (l.performed r a).course
  have hnext : l.next h.now (.done lane r) =
      { (l.perform r a).2 with course := l.course.next h.now (.done lane r) } := by
    rw [← same] at hn
    simp only [next, hn, hcourse]
    rw [← hresult]
  have ha : l.course.session.admits (.done lane r) := by
    rw [same]
    exact Session.admits_of_result hn (h.perform_result id seat a)
  rw [hnext]
  refine ⟨?_, hlink⟩
  rw [Course.session_next ha, same]

end Liaison
end EditionGateway
