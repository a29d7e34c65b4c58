import EditionGateway.Proofs.Compression.Lawful
import EditionGateway.Proofs.Datagram.Lossless
import EditionGateway.Proofs.Gateway.Switching
import EditionGateway.Proofs.Shape.Packets

/-!
A client at the far end of the link. It goes by the settings as soon as it reads them, and reads every
packet as it was sent, whatever it loses besides the settings.
-/

namespace EditionGateway

open Datagram Notes

namespace Datagram

/-- A body with a mark can be read under any threshold. -/
theorem decodeBody_encodeBody {z : Compression} (hz : z.Lawful) (t u : Nat) {p : Bytes}
    (hp : p.length ≤ maxInflatedLength) : decodeBody z (some t) (encodeBody z (some u) p) = .ok p := by
  have hmark : deflatedMark ≠ storedMark ∧ deflatedMark ≠ plainMark := by decide
  by_cases hu : u ≤ p.length
  · simp only [encodeBody, if_pos hu, decodeBody, hmark.1, hmark.2, or_self, if_false, if_true, hz _ p hp]
  · simp only [encodeBody, if_neg hu, decodeBody, true_or, if_true]

end Datagram

namespace Mail

/-- A packet is read under the threshold that it was sent under. -/
theorem Carries.read {x : Mail} {z : Compression} (hz : z.Lawful) {t : Threshold} (h : x.Carries z t) :
    ∃ b, decodeBody z t x.body = .ok b ∧
      Client.Packet.shape.decode b = .ok x.packet := by
  obtain ⟨b, henc, hbody⟩ := h
  refine ⟨b, ?_, Client.Packet.exact_shape.decode_encode henc⟩
  rw [hbody]
  cases t with
  | none => rfl
  | some t => exact decodeBody_encodeBody hz t t (Shape.encode_eq_ok.mp henc).2

/-- A packet that announces nothing can be left out. -/
theorem Framed.leave {z : Compression} {t : Threshold} {xs ys : List Mail} {x : Mail}
    (h : Framed z t (xs ++ x :: ys)) (hx : x.packet.kind ≠ .networkSettings) : Framed z t (xs ++ ys) := by
  obtain ⟨hxs, -, hys⟩ := (framed_append _ _ _ _).mp h
  refine (framed_append _ _ _ _).mpr ⟨hxs, ?_⟩
  rw [Client.Packet.switch, Client.Packet.announces?_eq_none_iff.mpr hx] at hys
  exact hys

/-- As such fragments come in, they bring these packets for the inbox. -/
inductive Brings : Reassembly → List Fragment → List Mail → Prop
  | nil (r : Reassembly) : Brings r [] []
  | part {r : Reassembly} {f : Fragment} {fs : List Fragment} {xs : List Mail}
      (waits : (r.feed f).1 = none) (rest : Brings (r.feed f).2 fs xs) : Brings r (f :: fs) xs
  | whole {r : Reassembly} {f : Fragment} {fs : List Fragment} {x : Mail} {xs : List Mail}
      (own : f ∈ x.fragments) (brings : (r.feed f).1 = some (.ok x.body))
      (rest : Brings (r.feed f).2 fs xs) : Brings r (f :: fs) (x :: xs)

theorem Brings.first {r : Reassembly} {fs gs : List Fragment} {xs : List Mail} (h : Brings r (fs ++ gs) xs) :
    ∃ ys zs, xs = ys ++ zs ∧ Brings r fs ys ∧ (gs = [] → zs = []) := by
  induction fs generalizing r xs with
  | nil =>
    refine ⟨[], xs, rfl, .nil r, ?_⟩
    rintro rfl
    cases h
    rfl
  | cons f fs ih =>
    cases h with
    | part waits rest =>
      obtain ⟨ys, zs, heq, hys, hzs⟩ := ih rest
      exact ⟨ys, zs, heq, .part waits hys, hzs⟩
    | @whole _ _ _ x _ own brings rest =>
      obtain ⟨ys, zs, heq, hys, hzs⟩ := ih rest
      exact ⟨x :: ys, zs, congrArg (x :: ·) heq, .whole own brings hys, hzs⟩

section

variable {x : Mail} {last : Option UInt32} {seq : UInt32} {split : UInt16} {parts : List Bytes}
  {fs : List Fragment} {xs : List Mail}

/-- The parts of a packet that are still to come bring it with the last of them, if it is later than the
last packet. -/
theorem brings_parts (hcut : (x.posted 0).Cut seq split parts)
    (rest : Brings ⟨[], if last.all (· < seq) then some seq else last⟩ fs xs) {i : Nat}
    (hi : i < parts.length) :
    Brings (.expecting last seq split parts i) (x.fragments.drop i ++ fs)
      (if last.all (· < seq) then x :: xs else xs) := by
  have hlength : x.fragments.length = parts.length := hcut.length_fragments
  have hlt : i < x.fragments.length := hlength ▸ hi
  have hfeed := Reassembly.feed_next last hcut (List.getElem?_eq_getElem hlt)
  rw [List.drop_eq_getElem_cons hlt, List.cons_append]
  by_cases hmore : i + 1 < parts.length
  · rw [if_pos hmore] at hfeed
    refine .part (congrArg Prod.fst hfeed) ?_
    rw [hfeed]
    exact brings_parts hcut rest hmore
  · rw [if_neg hmore] at hfeed
    have hrest : Brings ((Reassembly.expecting last seq split parts i).feed x.fragments[i]).2 fs xs := by
      rw [hfeed]
      exact rest
    rw [List.drop_eq_nil_of_le (by omega), List.nil_append]
    by_cases hlater : last.all (· < seq) = true
    · rw [if_pos hlater]
      exact .whole (List.getElem_mem hlt) ((congrArg Prod.fst hfeed).trans (if_pos hlater)) hrest
    · rw [if_neg hlater]
      exact .part ((congrArg Prod.fst hfeed).trans (if_neg hlater)) hrest
termination_by parts.length - i

theorem brings_packet (hcut : (x.posted 0).Cut seq split parts)
    (rest : Brings ⟨[], if last.all (· < seq) then some seq else last⟩ fs xs) :
    Brings ⟨[], last⟩ (x.fragments ++ fs) (if last.all (· < seq) then x :: xs else xs) :=
  brings_parts hcut rest hcut.pos

end

theorem cut_tail {k : Nat} {x : Mail} {xs : List Mail}
    (hcut : ∀ (i : Nat) (y : Mail), (x :: xs)[i]? = some y → y.IsCut (UInt32.ofNat (k + i))) (i : Nat) (y : Mail)
    (hy : xs[i]? = some y) : y.IsCut (UInt32.ofNat (k + 1 + i)) := by
  have hcut := hcut (i + 1) y hy
  rwa [Nat.add_comm i 1, ← Nat.add_assoc] at hcut

/-- Packets come one by one as they have been sent, until the sequence numbers are used up. -/
theorem brings_all {k : Nat} {xs : List Mail}
    (hcut : ∀ (i : Nat) (x : Mail), xs[i]? = some x → x.IsCut (UInt32.ofNat (k + i))) :
    Brings ⟨[], Reassembly.lastAfter k⟩ (xs.flatMap (·.fragments)) (xs.take (UInt32.size - k)) := by
  induction xs generalizing k with
  | nil => simpa using Brings.nil _
  | cons x xs ih =>
    obtain ⟨split, parts, hx⟩ := hcut 0 x rfl
    have hrest := ih (cut_tail hcut)
    rw [← Reassembly.lastAfter_next] at hrest
    have hpacket := brings_packet hx hrest
    rw [Nat.add_zero, Reassembly.lastAfter_all] at hpacket
    simp only [decide_eq_true_eq] at hpacket
    -- the first packet is brought, unless as many as there are numbers have been
    by_cases hk : k < UInt32.size
    · have hleft : UInt32.size - k = (UInt32.size - (k + 1)) + 1 := by omega
      rw [hleft, List.take_succ_cons]
      rwa [if_pos hk] at hpacket
    · have hleft : UInt32.size - k = UInt32.size - (k + 1) := by omega
      have hnone : UInt32.size - (k + 1) = 0 := by omega
      rw [if_neg hk, hnone, List.take_zero] at hpacket
      rwa [hleft, hnone, List.take_zero]

end Mail

namespace Datagram

/-- How a connection makes bodies of packets. -/
def Connection.coding (c : Connection) : Compression × Threshold := (c.compression, c.threshold)

namespace Endpoint

/-! ### The client -/

/-- A client goes by the settings that it has read. -/
def heed (e : Endpoint) (id : ConnectionId) (p : Client.Packet) : Endpoint :=
  match p.announces? with
  | some t => e.setThreshold id (some t.toNat)
  | none => e

/-- A client takes a packet, if one has come: the packet, or nothing if it cannot be read. -/
def read (e : Endpoint) (id : ConnectionId) : Option (Option Client.Packet) × Endpoint :=
  match e.receive id with
  | (some (.packet b), d) =>
    match Client.Packet.shape.decode b with
    | .ok p => (some (some p), d.heed id p)
    | .error _ => (some none, d)
  | (some (.failed _), d) => (some none, d)
  | (some .ended, d) | (none, d) => (none, d)

variable (a : Address) (id : ConnectionId)

/-- What becomes of a client when a fragment comes from its peer, or when it takes a packet. -/
def turn (e : Endpoint) : Turn → Endpoint
  | .arrival f => e.next (Turn.arrival f |>.incident a id)
  | .take => (e.read id).2

def afterReading (e : Endpoint) (ts : List Turn) : Endpoint := ts.foldl (turn a id) e

/-- What a client reads. -/
def readings (e : Endpoint) : List Turn → List (Option Client.Packet)
  | [] => []
  | .arrival f :: ts => (e.turn a id (.arrival f)).readings ts
  | .take :: ts => (e.read id).1.toList ++ (e.turn a id .take).readings ts

/-- There is room in the inbox when one of these fragments comes. -/
def HasRoom (e : Endpoint) (ts : List Turn) (fs : Fragment → Prop) : Prop :=
  ∀ ts₁ f ts₂, ts = ts₁ ++ .arrival f :: ts₂ → fs f →
    ((e.afterReading a id ts₁).inbox id).length < inboxCapacity

variable {a id} {e : Endpoint} {r : Reassembly}

theorem HasRoom.tail {t : Turn} {ts : List Turn} {fs : Fragment → Prop} (h : e.HasRoom a id (t :: ts) fs) :
    (e.turn a id t).HasRoom a id ts fs :=
  fun ts₁ f ts₂ heq hf => h (t :: ts₁) f ts₂ (congrArg (t :: ·) heq) hf

theorem HasRoom.mono {ts : List Turn} {fs gs : Fragment → Prop} (h : e.HasRoom a id ts fs)
    (hgs : ∀ f, gs f → fs f) : e.HasRoom a id ts gs :=
  fun ts₁ f ts₂ heq hf => h ts₁ f ts₂ heq (hgs f hf)

theorem Tends.heed (h : e.Tends a id r) (p : Client.Packet) :
    (e.heed id p).Tends a id r ∧ (e.heed id p).inbox id = e.inbox id := by
  unfold Endpoint.heed
  cases p.announces? with
  | none => exact ⟨h, rfl⟩
  | some u =>
    obtain ⟨c, hc⟩ := h.connection
    have hget : (e.setThreshold id (some u.toNat)).connections.get? id =
        some (c.setThreshold (some u.toNat)) := by
      rw [setThreshold, Table.get?_modify, if_pos rfl, hc, Option.map_some]
    refine ⟨⟨h.running, h.peer, _, hget⟩, ?_⟩
    rw [inbox, inbox, hget, hc]
    rfl

theorem Tends.read (h : e.Tends a id r) :
    (e.turn a id .take).Tends a id r ∧ (e.turn a id .take).inbox id = (e.inbox id).tail := by
  have htake : (e.receive id).2.Tends a id r ∧ (e.receive id).2.inbox id = (e.inbox id).tail := h.take
  rw [turn, Endpoint.read]
  generalize e.receive id = got at htake
  rcases got with ⟨got, d⟩
  rcases got with - | b | - | err
  · exact htake
  · dsimp only
    split
    · next p hp =>
      obtain ⟨hheed, hinbox⟩ := htake.1.heed p
      exact ⟨hheed, hinbox.trans htake.2⟩
    · exact htake
  · exact htake
  · exact htake

theorem hasRoom_cons {t : Turn} {ts : List Turn} {fs : Fragment → Prop}
    (first : ∀ f, t = .arrival f → fs f → (e.inbox id).length < inboxCapacity)
    (rest : (e.turn a id t).HasRoom a id ts fs) : e.HasRoom a id (t :: ts) fs := by
  intro ts₁ f ts₂ heq hf
  cases ts₁ with
  | nil => exact first f (List.cons.inj heq).1 hf
  | cons t₁ ts₁ =>
    obtain ⟨rfl, htail⟩ := List.cons.inj heq
    exact rest ts₁ f ts₂ htail hf

/-- Who takes a packet after each fragment always has room, and leaves none in the inbox. -/
theorem Tends.eagerly (h : e.Tends a id r) (empty : e.inbox id = []) (fs : List Fragment) :
    e.HasRoom a id (eagerly fs) (fun _ => True) ∧ (e.afterReading a id (Datagram.eagerly fs)).inbox id = [] := by
  induction fs generalizing e r with
  | nil =>
    refine ⟨fun ts₁ f ts₂ heq => ?_, empty⟩
    exact absurd heq.symm (List.append_ne_nil_of_right_ne_nil _ (List.cons_ne_nil _ _))
  | cons f fs ih =>
    obtain ⟨hf, hinbox⟩ := h.arrival f
    obtain ⟨ht, htail⟩ := hf.read
    have hroom : (e.inbox id).length < inboxCapacity := by
      rw [empty]
      decide
    obtain ⟨hrest, hempty⟩ := ih ht <| by
      rw [htail, hinbox]
      cases (r.feed f).1 with
      | none => exact congrArg List.tail empty
      | some got =>
        dsimp only
        rw [if_pos hroom, empty]
        rfl
    exact ⟨hasRoom_cons (fun _ _ _ => hroom) (hasRoom_cons nofun hrest), hempty⟩

/-- A connection reads bodies as before when a fragment comes. -/
theorem coding_onFragment (e : Endpoint) (id : ConnectionId) (a : Address) (b : Bytes) :
    ((e.onFragment a b).connections.get? id).map (·.coding) =
      (e.connections.get? id).map (·.coding) := by
  have hdeliver (d : Endpoint) (j : ConnectionId) (got : Except LinkError Bytes) :
      ((d.deliver a j got).connections.get? id).map (·.coding) =
        (d.connections.get? id).map (·.coding) := by
    unfold deliver
    split
    · rw [Table.get?_modify]
      split
      · next hj =>
        subst hj
        rw [Option.map_map]
        refine congrArg (Option.map · _) (funext fun c => ?_)
        rw [Function.comp_apply, Connection.deliver]
        split <;> rfl
      · rfl
    · rfl
  obtain heq | ⟨j, got, heq⟩ | ⟨r, heq | ⟨j, got, heq⟩⟩ := e.onFragment_cases a b
  · rw [heq]
  · rw [heq, hdeliver]
  · rw [heq]
  · rw [heq, hdeliver]

/-- Of a connection with this compression and threshold, such packets wait in the inbox. -/
structure Waits (e : Endpoint) (a : Address) (id : ConnectionId) (z : Compression) (r : Reassembly)
    (t : Threshold) (box : List Mail) : Prop where
  tends : e.Tends a id r
  coding : (e.connections.get? id).map (·.coding) = some (z, t)
  inbox : e.inbox id = box.map (.ok ·.body)

namespace Waits

variable {z : Compression} {t : Threshold} {box : List Mail}

theorem arrival (h : e.Waits a id z r t box) (f : Fragment) (x? : Option Mail)
    (hf : (r.feed f).1 = x?.map (.ok ·.body)) :
    (e.turn a id (.arrival f)).Waits a id z (r.feed f).2 t
      (box ++ if box.length < inboxCapacity then x?.toList else []) := by
  obtain ⟨htends, hinbox⟩ := h.tends.arrival f
  refine ⟨htends, ?_, ?_⟩
  · show (((e.handle none 0 a f.encode).2).connections.get? id).map (·.coding) = some (z, t)
    rw [handle_fragment h.tends.running, coding_onFragment]
    exact h.coding
  · refine hinbox.trans ?_
    rw [hf, h.inbox, List.length_map, List.map_append]
    cases x? with
    | none => simp
    | some x => by_cases hroom : box.length < inboxCapacity <;> simp [hroom]

/-- A packet is taken from the inbox. -/
theorem taken (h : e.Waits a id z r t box) :
    (e.next (Turn.take.incident a id)).Waits a id z r t box.tail := by
  obtain ⟨htends, htail⟩ := h.tends.take
  refine ⟨htends, ?_, ?_⟩
  · obtain ⟨c, hc⟩ := h.tends.connection
    have hkept : (c.receive (e.isFed id)).2.coding = c.coding := by
      unfold Connection.receive
      split <;> rfl
    show ((e.receive id).2.connections.get? id).map (·.coding) = some (z, t)
    rw [receive, hc]
    dsimp only
    rw [Table.get?_modify, if_pos rfl, hc, Option.map_some, Option.map_some, hkept, ← h.coding, hc,
      Option.map_some]
  · rw [htail, h.inbox, List.map_tail]

/-- The client goes by a packet that it has read. -/
theorem heed (h : e.Waits a id z r t box) (p : Client.Packet) :
    (e.heed id p).Waits a id z r (p.switch t) box := by
  obtain ⟨htends, hinbox⟩ := h.tends.heed p
  refine ⟨htends, ?_, hinbox.trans h.inbox⟩
  unfold Endpoint.heed Client.Packet.switch
  cases p.announces? with
  | none => exact h.coding
  | some u =>
    obtain ⟨c, hc⟩ := h.tends.connection
    have hcoding := h.coding
    rw [hc, Option.map_some, Option.some.injEq] at hcoding
    show ((e.connections.modify id (·.setThreshold (some u.toNat))).get? id).map (·.coding) =
      some (z, some u.toNat)
    rw [Table.get?_modify, if_pos rfl, hc]
    have hcompression : c.compression = z := congrArg Prod.fst hcoding
    exact congrArg some (Prod.ext hcompression (Threshold.clamp_toNat u))

/-- Nothing is read where nothing waits. -/
theorem read_nil (h : e.Waits a id z r t []) :
    (e.read id).1 = none ∧ (e.turn a id .take).Waits a id z r t [] := by
  obtain ⟨c, hc⟩ := h.tends.connection
  have hinbox : c.inbox = [] := by simpa [Endpoint.inbox, hc] using h.inbox
  have hread : e.read id = (none, e.next (Turn.take.incident a id)) := by
    show e.read id = (none, (e.receive id).2)
    simp only [read, receive, hc, Connection.receive, hinbox]
    cases e.isFed id <;> rfl
  rw [turn, hread]
  exact ⟨rfl, h.taken⟩

/-- The first packet that waits is read, under the threshold that it was sent under. -/
theorem read_cons {x : Mail} (hz : z.Lawful) (h : e.Waits a id z r t (x :: box)) (hx : x.Carries z t) :
    (e.read id).1 = some (some x.packet) ∧
      (e.turn a id .take).Waits a id z r (x.packet.switch t) box := by
  obtain ⟨b, hdecode, hpacket⟩ := hx.read hz
  obtain ⟨c, hc⟩ := h.tends.connection
  have hcoding := h.coding
  rw [hc, Option.map_some, Option.some.injEq] at hcoding
  have hcompression : c.compression = z := congrArg Prod.fst hcoding
  have hthreshold : c.threshold = t := congrArg Prod.snd hcoding
  have hinbox : c.inbox = .ok x.body :: box.map (.ok ·.body) := by
    simpa [Endpoint.inbox, hc] using h.inbox
  have hreceive : e.receive id = (some (.packet b), e.next (Turn.take.incident a id)) := by
    show _ = (_, (e.receive id).2)
    simp only [receive, hc, Connection.receive, hinbox, hcompression, hthreshold, hdecode]
  have hread : e.read id = (some (some x.packet), (e.next (Turn.take.incident a id)).heed id x.packet) := by
    simp only [read, hreceive, hpacket]
  rw [turn, hread]
  exact ⟨rfl, h.taken.heed x.packet⟩

/-- Whatever comes, the packets that are read are those that have been put into the inbox, one after
another. The settings must find room there. -/
theorem reads (hz : z.Lawful) (h : e.Waits a id z r t box) {ts : List Turn} {xs : List Mail}
    (brings : Mail.Brings r (arrivals ts) xs) (framed : Mail.Framed z t (box ++ xs))
    (room : e.HasRoom a id ts fun f => ∃ x ∈ xs, x.packet.kind = .networkSettings ∧ f ∈ x.fragments) :
    ∃ ys zs, (ys ++ zs).Sublist (box ++ xs) ∧ e.readings a id ts = ys.map (some ·.packet) ∧
      (e.afterReading a id ts).inbox id = zs.map (.ok ·.body) ∧
      (e.HasRoom a id ts (fun _ => True) → ys ++ zs = box ++ xs) := by
  induction ts generalizing e r t box xs with
  | nil =>
    cases brings
    rw [List.append_nil]
    exact ⟨[], box, List.Sublist.refl _, rfl, h.inbox, fun _ => rfl⟩
  | cons turn ts ih =>
    cases turn with
    | take =>
      cases box with
      | nil =>
        obtain ⟨hread, hwaits⟩ := h.read_nil
        obtain ⟨ys, zs, hsub, hys, hzs, hall⟩ := ih hwaits brings framed room.tail
        refine ⟨ys, zs, hsub, ?_, hzs, fun hroom => hall hroom.tail⟩
        rw [readings, hread, hys]
        rfl
      | cons x box =>
        obtain ⟨hread, hwaits⟩ := h.read_cons hz framed.1
        obtain ⟨ys, zs, hsub, hys, hzs, hall⟩ := ih hwaits brings framed.2 room.tail
        refine ⟨x :: ys, zs, hsub.cons_cons x, ?_, hzs, fun hroom => congrArg (x :: ·) (hall hroom.tail)⟩
        rw [readings, hread, hys]
        rfl
    | arrival f =>
      have hroom {fs : Fragment → Prop} (hr : e.HasRoom a id (.arrival f :: ts) fs) (hf : fs f) :
          box.length < inboxCapacity := by
        have hlt := hr [] f ts rfl hf
        rwa [afterReading, List.foldl_nil, h.inbox, List.length_map] at hlt
      cases brings with
      | part waits rest =>
        have hwaits := h.arrival f none waits
        simp only [Option.toList_none, ite_self, List.append_nil] at hwaits
        obtain ⟨ys, zs, hsub, hys, hzs, hall⟩ := ih hwaits rest framed room.tail
        exact ⟨ys, zs, hsub, hys, hzs, fun hr => hall hr.tail⟩
      | @whole _ _ _ x xs own brings rest =>
        have hwaits := h.arrival f (some x) brings
        have hrest : (e.turn a id (.arrival f)).HasRoom a id ts fun f =>
            ∃ x ∈ xs, x.packet.kind = .networkSettings ∧ f ∈ x.fragments :=
          room.tail.mono fun g ⟨y, hy, hkind, hg⟩ => ⟨y, List.mem_cons_of_mem _ hy, hkind, hg⟩
        by_cases hlt : box.length < inboxCapacity
        · rw [if_pos hlt] at hwaits
          have heq : box ++ x :: xs = box ++ [x] ++ xs := List.append_cons box x xs
          rw [heq] at framed
          obtain ⟨ys, zs, hsub, hys, hzs, hall⟩ := ih hwaits rest framed hrest
          rw [heq]
          exact ⟨ys, zs, hsub, hys, hzs, fun hr => hall hr.tail⟩
        · -- a packet that finds no room announces nothing
          have hkind : x.packet.kind ≠ .networkSettings := fun hkind =>
            hlt (hroom room ⟨x, List.mem_cons_self, hkind, own⟩)
          rw [if_neg hlt, List.append_nil] at hwaits
          obtain ⟨ys, zs, hsub, hys, hzs, -⟩ := ih hwaits rest (framed.leave hkind) hrest
          refine ⟨ys, zs, hsub.trans ?_, hys, hzs, fun hr => absurd (hroom hr trivial) hlt⟩
          exact (List.Sublist.refl box).append (List.sublist_cons_self x xs)

end Waits

end Endpoint

end Datagram

namespace Mail

theorem Framed.carries {z : Compression} {t : Threshold} {before after : List Mail} {x : Mail}
    (h : Framed z t (before ++ x :: after)) : x.Carries z (announced t before) :=
  ((framed_append _ _ _ _).mp h).2.1

end Mail

namespace Liaison

open Mail Loopback

variable {l : Liaison} {m : Mappings} {u : UInt16} {z : Compression}

/-- There are no settings before the settings, nor after them. -/
theorem Faithful.announces_once (h : l.Faithful m u z) {before after : List Mail}
    (heq : l.sent = before ++ after) :
    announcements before = [] ∨ announcements before = [u] ∧ announcements after = [] := by
  have hsent := h.switched.1
  rw [heq, announcements_append] at hsent
  obtain hnil | hone := hsent
  · exact .inl (List.append_eq_nil_iff.mp hnil).1
  · exact (List.append_eq_singleton_iff.mp hone).imp_left And.left

/-- Only what comes after the settings is sent with a mark. -/
theorem Faithful.carries (h : l.Faithful m u z) {before after : List Mail} {x : Mail}
    (heq : l.sent = before ++ x :: after) :
    x.Carries z (if ∃ y ∈ before, y.packet.kind = .networkSettings then some u.toNat else none) := by
  have hframed := h.framed
  rw [heq] at hframed
  have hbefore := hframed.carries
  rw [announced_eq] at hbefore
  by_cases hy : ∃ y ∈ before, y.packet.kind = .networkSettings
  · have hne : announcements before ≠ [] := by
      rw [Ne, announcements_eq_nil_iff]
      push Not
      exact hy
    rw [((h.announces_once heq).resolve_left hne).1] at hbefore
    rw [if_pos hy]
    exact hbefore
  · have hnil : announcements before = [] := by
      rw [announcements_eq_nil_iff]
      push Not at hy
      exact hy
    rw [hnil] at hbefore
    rw [if_neg hy]
    exact hbefore

/-- To begin with nothing waits for a client, and there is no threshold. -/
theorem waits_ofServer (a : Address) (guid : UInt64) (mtu firstSplit : UInt16) (z : Compression) :
    (Endpoint.ofServer a guid mtu firstSplit z).Waits a clientConnection z ⟨[], Reassembly.lastAfter 0⟩ none
      [] := by
  have hget : (Endpoint.ofServer a guid mtu firstSplit z).peers.get? a = some ⟨clientConnection, mtu, {}⟩ := by
    show Table.get? [(a, _)] a = _
    rw [Table.get?_cons, if_pos rfl]
    rfl
  exact ⟨⟨rfl, ⟨_, hget, rfl, rfl⟩, _, rfl⟩, rfl, rfl⟩

/-- A client reads nothing but what the gateway has sent, in that order; if it never lacks room, it reads
all of it. -/
theorem Faithful.reads (h : l.Faithful m u z) (hz : z.Lawful) {a : Address} {guid : UInt64} {mtu firstSplit : UInt16}
    {ts : List Datagram.Turn} {flight : List Fragment} (came : arrivals ts ++ flight = l.sent.flatMap (·.fragments))
    (room : (Endpoint.ofServer a guid mtu firstSplit z).HasRoom a clientConnection ts fun f =>
      ∃ x ∈ l.sent, x.packet.kind = .networkSettings ∧ f ∈ x.fragments) :
    let e := Endpoint.ofServer a guid mtu firstSplit z
    ∃ ys zs, (ys ++ zs).Sublist l.sent ∧
      e.readings a clientConnection ts = ys.map (some ·.packet) ∧
      (e.afterReading a clientConnection ts).inbox clientConnection = zs.map (.ok ·.body) ∧
      (e.HasRoom a clientConnection ts (fun _ => True) → flight = [] →
        ys ++ zs = l.sent.take UInt32.size) := by
  intro e
  have hbrings := brings_all (k := 0) fun i x hx => by
    rw [Nat.zero_add]
    exact h.cut i x hx
  rw [← came] at hbrings
  obtain ⟨xs, xs', heq, hxs, hnil⟩ := hbrings.first
  have hprefix : xs.Sublist l.sent := by
    refine List.Sublist.trans ?_ (List.take_sublist (UInt32.size - 0) l.sent)
    rw [heq]
    exact List.sublist_append_left xs xs'
  have hframed : Framed z none ([] ++ xs) := by
    have hall := h.framed
    rw [← List.take_append_drop (UInt32.size - 0) l.sent, heq, List.append_assoc] at hall
    exact ((framed_append _ _ _ _).mp hall).1
  obtain ⟨ys, zs, hsub, hys, hzs, hall⟩ := (waits_ofServer a guid mtu firstSplit z).reads hz hxs hframed
    (room.mono fun f ⟨x, hx, hkind, hf⟩ => ⟨x, hprefix.subset hx, hkind, hf⟩)
  refine ⟨ys, zs, hsub.trans hprefix, hys, hzs, fun hroom hflight => ?_⟩
  rw [hall hroom, List.nil_append]
  rw [hnil hflight, List.append_nil] at heq
  exact heq.symm

end Liaison
end EditionGateway
