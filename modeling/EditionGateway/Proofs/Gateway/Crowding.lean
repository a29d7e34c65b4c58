import EditionGateway.Proofs.Gateway.Reading
import EditionGateway.Proofs.Session.Patience

/-!
A client that lets its inbox fill up. What finds no room there is dropped, the settings too; a client that
never sees them reads the bodies that come after them with the mark still on.
-/

namespace EditionGateway

open Datagram

namespace Mail

/-- After packets that have come one by one, none of them is left incomplete. -/
theorem after_all {k : Nat} {xs : List Mail}
    (hcut : ∀ (i : Nat) (x : Mail), xs[i]? = some x → x.IsCut (UInt32.ofNat (k + i))) :
    (⟨[], Reassembly.lastAfter k⟩ : Reassembly).after (xs.flatMap (·.fragments)) =
      ⟨[], Reassembly.lastAfter (k + xs.length)⟩ := by
  induction xs generalizing k with
  | nil => rfl
  | cons x xs ih =>
    obtain ⟨split, parts, hx⟩ := hcut 0 x rfl
    have hpacket := (Reassembly.after_packet hx (Reassembly.lastAfter k)).1
    rw [Nat.add_zero, Reassembly.lastAfter_next] at hpacket
    have hlength : k + (x :: xs).length = k + 1 + xs.length := by
      rw [List.length_cons]
      omega
    rw [List.flatMap_cons, Reassembly.after_append, hlength]
    exact (congrArg (Reassembly.after · _) hpacket).trans (ih (cut_tail hcut))

end Mail

namespace Datagram

/-- These packets come before any is taken. Then as many are taken as the inbox holds; at last one more comes,
and is taken. -/
def crowded (early : List Mail) (late : Mail) : List Turn :=
  (early.flatMap (·.fragments)).map .arrival ++
    (List.replicate inboxCapacity .take ++ (late.fragments.map .arrival ++ [.take]))

theorem arrivals_crowded (early : List Mail) (late : Mail) :
    arrivals (crowded early late) = (early ++ [late]).flatMap (·.fragments) := by
  have htake (n : Nat) : arrivals (List.replicate n .take) = [] := List.filterMap_replicate_of_none rfl
  rw [crowded, arrivals_append, arrivals_append, arrivals_append, arrivals_arrival, htake, arrivals_arrival,
    List.flatMap_append]
  rfl

namespace Endpoint

variable {a : Address} {id : ConnectionId} {e : Endpoint}

theorem readings_append (ts us : List Turn) : e.readings a id (ts ++ us) =
    e.readings a id ts ++ (e.afterReading a id ts).readings a id us := by
  induction ts generalizing e with
  | nil => rfl
  | cons t ts ih =>
    cases t with
    | arrival f => exact ih
    | take => exact (congrArg ((e.read id).1.toList ++ ·) ih).trans (List.append_assoc _ _ _).symm

theorem readings_arrival (fs : List Fragment) : e.readings a id (fs.map .arrival) = [] := by
  induction fs generalizing e with
  | nil => rfl
  | cons f fs ih => exact ih

namespace Waits

variable {r : Reassembly} {z : Compression} {t : Threshold} {box : List Mail}

/-- Of what comes while nothing is taken, the inbox keeps the first packets that it has room for. -/
theorem keeps_first (h : e.Waits a id z r t box) (fits : box.length ≤ inboxCapacity) {fs : List Fragment}
    {xs : List Mail} (brings : Mail.Brings r fs xs) :
    (e.afterReading a id (fs.map .arrival)).Waits a id z (r.after fs) t ((box ++ xs).take inboxCapacity) := by
  induction fs generalizing e r box xs with
  | nil =>
    cases brings
    rw [List.append_nil, List.take_of_length_le fits]
    exact h
  | cons f fs ih =>
    cases brings with
    | part waits rest =>
      have hwaits := h.arrival f none waits
      simp only [Option.toList_none, ite_self, List.append_nil] at hwaits
      exact ih hwaits fits rest
    | @whole _ _ _ x xs own brings rest =>
      have hwaits := h.arrival f (some x) brings
      by_cases hlt : box.length < inboxCapacity
      · rw [if_pos hlt] at hwaits
        rw [List.append_cons box x xs]
        exact ih hwaits (by rw [List.length_append]; exact hlt) rest
      · -- the inbox is full, and stays as it is
        have hfull : box.length = inboxCapacity := by omega
        rw [if_neg hlt, List.append_nil] at hwaits
        have hrest := ih hwaits fits rest
        rw [List.take_left' hfull] at hrest ⊢
        exact hrest

/-- Packets that wait are read one after another, each as it was sent. -/
theorem takes (hz : z.Lawful) (h : e.Waits a id z r t box) {xs rest : List Mail} (split : box = xs ++ rest)
    (framed : Mail.Framed z t xs) :
    e.readings a id (List.replicate xs.length .take) = xs.map (some ·.packet) ∧
      (e.afterReading a id (List.replicate xs.length .take)).Waits a id z r (Mail.announced t xs) rest := by
  subst split
  induction xs generalizing e t with
  | nil => exact ⟨rfl, h⟩
  | cons x xs ih =>
    obtain ⟨hread, hwaits⟩ := h.read_cons hz framed.1
    obtain ⟨hreads, hafter⟩ := ih framed.2 hwaits
    refine ⟨?_, hafter⟩
    rw [List.length_cons, List.replicate_succ, readings, hread, hreads]
    rfl

/-- Where no settings have been read, a body is read as it stands. -/
theorem read_bare {x : Mail} (h : e.Waits a id z r none (x :: box)) :
    (e.read id).1 = some (Client.Packet.shape.decode x.body).toOption := by
  obtain ⟨c, hc⟩ := h.tends.connection
  have hcoding := h.coding
  rw [hc, Option.map_some, Option.some.injEq] at hcoding
  have hthreshold : c.threshold = none := congrArg Prod.snd hcoding
  have hinbox : c.inbox = .ok x.body :: box.map (.ok ·.body) := by
    simpa [Endpoint.inbox, hc] using h.inbox
  have hreceive : (e.receive id).1 = some (.packet x.body) := by
    simp only [receive, hc, Connection.receive, hinbox, hthreshold, decodeBody]
  unfold Endpoint.read
  generalize e.receive id = got at hreceive
  obtain ⟨got, d⟩ := got
  obtain rfl : got = some (.packet x.body) := hreceive
  dsimp only
  cases Client.Packet.shape.decode x.body <;> rfl

/-- Of a client whose inbox is full when the settings come, they are lost. It reads the next packet as it
stands, mark and all. -/
theorem readings_crowded (hz : z.Lawful) (h : e.Waits a id z ⟨[], Reassembly.lastAfter 0⟩ none [])
    {xs : List Mail} {s y : Mail}
    (cut : ∀ (i : Nat) (x : Mail), (xs ++ [s] ++ [y])[i]? = some x → x.IsCut (UInt32.ofNat i))
    (framed : Mail.Framed z none xs) (silent : Mail.announcements xs = []) (full : xs.length = inboxCapacity) :
    e.readings a id (crowded (xs ++ [s]) y) =
      xs.map (some ·.packet) ++ [(Client.Packet.shape.decode y.body).toOption] := by
  have hlength : (xs ++ [s]).length = inboxCapacity + 1 := by
    rw [List.length_append, full, List.length_singleton]
  have hfirst (i : Nat) (x : Mail) (hx : (xs ++ [s])[i]? = some x) : x.IsCut (UInt32.ofNat (0 + i)) := by
    rw [Nat.zero_add]
    exact cut i x ((List.getElem?_append_left (List.getElem?_eq_some_iff.mp hx).1).trans hx)
  have hlast (i : Nat) (x : Mail) (hx : [y][i]? = some x) :
      x.IsCut (UInt32.ofNat (0 + (xs ++ [s]).length + i)) := by
    rw [Nat.zero_add]
    refine cut _ x ?_
    rw [List.getElem?_append_right (Nat.le_add_right _ _), Nat.add_sub_cancel_left, hx]
  -- all but the settings find room
  have hfill := Mail.brings_all hfirst
  rw [List.take_of_length_le (by rw [hlength]; decide)] at hfill
  have hfull := h.keeps_first (Nat.zero_le _) hfill
  rw [Mail.after_all hfirst, List.nil_append, List.take_left' full] at hfull
  -- what waits is read, without a threshold
  obtain ⟨hreads, hempty⟩ := hfull.takes hz (List.append_nil xs).symm framed
  rw [full, Mail.announced_eq, silent] at hempty
  -- the last packet comes, and is read so too
  have hmore := Mail.brings_all hlast
  rw [List.take_of_length_le (by rw [hlength]; exact Nat.le_of_ble_eq_true rfl), List.flatMap_singleton] at hmore
  have hmarked := hempty.keeps_first (Nat.zero_le _) hmore
  rw [crowded, readings_append, readings_append, readings_append, readings_arrival, readings_arrival, ← full,
    hreads, full]
  show [] ++ (xs.map _ ++ ([] ++ (Option.toList _ ++ []))) = _
  rw [hmarked.read_bare]
  rfl

end Waits

end Endpoint

end Datagram

namespace Liaison

open Mail Loopback

/-- A session has got so far, and has told the client such packets. Its link is as `c`, but for what has been
counted. -/
structure Reached (l : Liaison) (s : Session) (c : Connection) (ps : List Client.Packet) : Prop where
  session : l.course.session = s
  link : ∃ seq, l.link = { c with nextSeq := seq }
  sent : l.sent.map (·.packet) = ps

namespace Reached

variable {l : Liaison} {s : Session} {c : Connection} {ps : List Client.Packet}

theorem heard (h : l.Reached s c ps) {r : Except GatewayError Client.Packet} (ha : s.admits (.client r))
    (idle : s.todo = []) (now : Nat) : (l.next now (.client r)).Reached (s.handle now (.client r)) c ps := by
  obtain ⟨rfl, hlink, hsent⟩ := h
  have hnext : l.next now (.client r) = { l with course := l.course.next now (.client r) } := by
    simp only [Liaison.next, idle]
  rw [hnext]
  exact ⟨Course.session_next ha now, hlink, hsent⟩

theorem told (h : l.Reached s c ps) {p : Client.Packet} {b : Bytes} (hn : s.next? .main = some (.tell p))
    (encoded : Client.Packet.shape.encode p = .ok b) (hopen : c.closed = false)
    (short : (encodeBody c.compression c.threshold b).length ≤ c.maxPayload) (now : Nat) :
    let done : Event := .done .main (.ok ())
    (l.next now done).Reached (s.handle now done) c (ps ++ [p]) := by
  obtain ⟨rfl, ⟨seq, hlink⟩, rfl⟩ := h
  have hsend := Connection.send_of_short (c := { c with nextSeq := seq }) (p := b) hopen short
  have ha : l.course.session.admits (.done .main (.ok ())) := Session.admits_of_result hn (.inl rfl)
  simp only [Liaison.next, hn, perform, tell, encoded, hlink, hsend]
  exact ⟨Course.session_next ha now, ⟨_, rfl⟩, List.map_append⟩

theorem compressed (h : l.Reached s c ps) {t : UInt16} (hn : s.next? .main = some (.compress t)) (now : Nat) :
    let done : Event := .done .main (.ok ())
    (l.next now done).Reached (s.handle now done) (c.setThreshold (some t.toNat)) ps := by
  obtain ⟨rfl, ⟨seq, hlink⟩, rfl⟩ := h
  have ha : l.course.session.admits (.done .main (.ok ())) := Session.admits_of_result hn (.inl rfl)
  simp only [Liaison.next, hn, perform, hlink]
  exact ⟨Course.session_next ha now, ⟨seq, rfl⟩, rfl⟩

section

variable (h : l.Reached s c ps) (stage : s.stage = .handshake) (idle : s.todo = []) (hopen : c.closed = false)
  {timestamp : UInt64} {b : Bytes} (encoded : Client.Packet.shape.encode (.networkStackLatency timestamp false) = .ok b)
  (short : (encodeBody c.compression c.threshold b).length ≤ c.maxPayload)
include h stage idle hopen encoded short

theorem probed (now : Nat) :
    ((l.next now (.client (.ok (.networkStackLatency timestamp true)))).next now (.done .main (.ok ()))).Reached
      s c (ps ++ [.networkStackLatency timestamp false]) := by
  have ha : s.admits (.client (.ok (.networkStackLatency timestamp true))) := by
    simp [Session.admits, Session.awaits, stage, idle]
  have hprobe := h.heard ha idle now
  have hechoes : s.Echoes (.networkStackLatency timestamp true) :=
    Session.echoes_of_disregards stage idle trivial
  rw [hechoes now] at hprobe
  have htold := hprobe.told rfl encoded hopen short now
  have hsame : { s with todo := [.tell (.networkStackLatency timestamp false)] }.handle now (.done .main (.ok ())) =
      s := by
    have hself : { s with todo := [] } = s := by rw [← idle]
    show Session.settle { s with todo := [] } now = s
    rw [hself, Session.settle, stage]
  exact hsame ▸ htold

/-- As long as the handshake lasts, a client can have its link probed as often as it likes. -/
theorem probes (now n : Nat) :
    let probe : Event := .client (.ok (.networkStackLatency timestamp true))
    (l.after ((List.replicate n [probe, .done .main (.ok ())]).flatten.map (now, ·))).Reached s c
      (ps ++ List.replicate n (.networkStackLatency timestamp false)) := by
  intro probe
  induction n generalizing l ps with
  | zero => rwa [List.replicate_zero, List.replicate_zero, List.append_nil]
  | succ n ih =>
    rw [List.replicate_succ (a := Client.Packet.networkStackLatency timestamp false), List.append_cons]
    exact ih (probed h stage idle hopen encoded short now)

end

end Reached

/-- A client has its link probed `n` times, asks for the settings, and has it probed once more. -/
def probing (n : Nat) : List (Nat × Event) :=
  let probe : Event := .client (.ok (.networkStackLatency 7 true))
  let request : Event := .client (.ok (.requestNetworkSettings 748))
  let done : Event := .done .main (.ok ())
  [(0, done)] ++ (List.replicate n [probe, done]).flatten.map (0, ·) ++
    [request, done, done, probe, done].map (0, ·)

theorem reached_probing (n : Nat) {link : Connection} (plain : link.threshold = none)
    (hopen : link.closed = false) (fits : 4 ≤ link.maxPayload) :
    ∃ s c, ((start {} {} ⟨7⟩ 0 link).after (probing n)).Reached s c
      (List.replicate n (.networkStackLatency 7 false) ++ [.networkSettings 256] ++
        [.networkStackLatency 7 false]) := by
  have encoded : Client.Packet.shape.encode (.networkStackLatency 7 false) = .ok [22, 7, 0] := rfl
  have hstart : ((start {} {} ⟨7⟩ 0 link).next 0 (.done .main (.ok ()))).Reached
      ((start {} {} ⟨7⟩ 0 link).next 0 (.done .main (.ok ()))).course.session link [] :=
    ⟨rfl, ⟨link.nextSeq, rfl⟩, rfl⟩
  have hprobes := hstart.probes rfl rfl hopen encoded (by rw [plain]; exact Nat.le_of_succ_le fits) 0 n
  have hrequest := hprobes.heard (r := .ok (.requestNetworkSettings 748)) rfl rfl 0
  have hsettings := hrequest.told (p := .networkSettings 256) (b := [1, 251, 0, 1]) rfl rfl hopen
    (by rw [plain]; exact fits) 0
  have hmarks := hsettings.compressed rfl 0
  have hprobe := hmarks.probed rfl rfl hopen encoded fits 0
  rw [List.nil_append] at hprobe
  rw [probing, after_append, after_append]
  exact ⟨_, _, hprobe⟩

/-- A client that takes nothing until the packets before the settings fill its inbox loses the settings, and
reads the packet after them with its mark. -/
theorem Faithful.misreads {l : Liaison} {m : Mappings} {u : UInt16} {z : Compression} (h : l.Faithful m u z)
    (hz : z.Lawful) {xs : List Mail} {s y : Mail} (sent : l.sent = xs ++ [s] ++ [y])
    (settings : s.packet.kind = .networkSettings) (full : xs.length = inboxCapacity) (a : Address)
    (guid : UInt64) (mtu firstSplit : UInt16) :
    arrivals (crowded (xs ++ [s]) y) = l.sent.flatMap (·.fragments) ∧
      (Endpoint.ofServer a guid mtu firstSplit z).readings a clientConnection (crowded (xs ++ [s]) y) =
        xs.map (some ·.packet) ++ [(Client.Packet.shape.decode y.body).toOption] := by
  have hsettings : announcements ([s] ++ [y]) ≠ [] := fun hnil =>
    announcements_eq_nil_iff.mp hnil s List.mem_cons_self settings
  have silent : announcements xs = [] :=
    (h.announces_once (sent.trans (List.append_assoc _ _ _))).resolve_right fun ⟨_, hnil⟩ => hsettings hnil
  have cut := h.cut
  have framed := h.framed
  rw [sent] at cut
  rw [sent, List.append_assoc] at framed
  refine ⟨(arrivals_crowded _ _).trans (congrArg _ sent.symm), ?_⟩
  exact (waits_ofServer a guid mtu firstSplit z).readings_crowded hz cut
    ((framed_append _ _ _ _).mp framed).1 silent full

end Liaison
end EditionGateway
