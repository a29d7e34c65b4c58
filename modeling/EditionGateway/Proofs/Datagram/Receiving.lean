import EditionGateway.Proofs.Datagram.History
import EditionGateway.Proofs.Datagram.Reassembly
import EditionGateway.Proofs.Datagram.Wire

/-!
What comes in over a connection. While fragments come from its peer and packets are taken from it, the
inbox of a connection is fed by the reassembly of that peer, and by nothing else.
-/

namespace EditionGateway
namespace Datagram

/-- What happens at the receiving end of a link. -/
inductive Turn
  | arrival (f : Fragment)
  | take

namespace Turn

def incident (a : Address) (id : ConnectionId) : Turn → Incident
  | arrival f => .arrive none 0 a f.encode
  | take => .receive id

def fragment? : Turn → Option Fragment
  | arrival f => some f
  | take => none

end Turn

/-- The fragments that arrive. -/
def arrivals (h : List Turn) : List Fragment := h.filterMap Turn.fragment?

theorem arrivals_append (ts us : List Turn) : arrivals (ts ++ us) = arrivals ts ++ arrivals us :=
  List.filterMap_append

theorem arrivals_arrival (fs : List Fragment) : arrivals (fs.map .arrival) = fs := by
  induction fs with
  | nil => rfl
  | cons f fs ih => exact congrArg (f :: ·) ih

/-- Each fragment is followed by an attempt to take a packet. -/
def eagerly (fs : List Fragment) : List Turn := fs.flatMap fun f => [.arrival f, .take]

theorem arrivals_eagerly (fs : List Fragment) : arrivals (eagerly fs) = fs := by
  induction fs with
  | nil => rfl
  | cons f fs ih => exact congrArg (f :: ·) ih

namespace Endpoint

def inbox (e : Endpoint) (id : ConnectionId) : List (Except LinkError Bytes) :=
  ((e.connections.get? id).map (·.inbox)).getD []

/-- A connection whose peer is at `a`, with what has come so far. -/
structure Tends (e : Endpoint) (a : Address) (id : ConnectionId) (r : Reassembly) : Prop where
  running : e.running = true
  peer : ∃ p, e.peers.get? a = some p ∧ p.connection = id ∧ p.reassembly = r
  connection : ∃ c, e.connections.get? id = some c

variable (a : Address) (id : ConnectionId)

def afterTurns (e : Endpoint) (h : List Turn) : Endpoint := e.after (h.map (Turn.incident a id))

/-- What is put into the inbox. -/
def gains (e : Endpoint) : List Turn → List (Except LinkError Bytes)
  | [] => []
  | t :: h =>
    let d := e.next (t.incident a id)
    (d.inbox id).drop (e.inbox id).length ++ d.gains h

/-- There is always room in the inbox when a fragment arrives. -/
def Drained (e : Endpoint) (h : List Turn) : Prop :=
  ∀ h₁ f h₂, h = h₁ ++ .arrival f :: h₂ → ((e.afterTurns a id h₁).inbox id).length < inboxCapacity

variable {a id} {e : Endpoint} {r : Reassembly}

theorem drained_nil : e.Drained a id [] := by
  intro h₁ f h₂ heq
  exact absurd heq.symm (List.append_ne_nil_of_right_ne_nil _ (List.cons_ne_nil _ _))

theorem drained_arrival {f : Fragment} {ts : List Turn} (room : (e.inbox id).length < inboxCapacity)
    (hts : (e.next (Turn.arrival f |>.incident a id)).Drained a id ts) :
    e.Drained a id (.arrival f :: ts) := by
  intro h₁ g h₂ heq
  cases h₁ with
  | nil => exact room
  | cons t h₁ =>
    obtain ⟨rfl, htail⟩ := List.cons.inj heq
    exact hts h₁ g h₂ htail

theorem drained_take {ts : List Turn} (hts : (e.next (Turn.take.incident a id)).Drained a id ts) :
    e.Drained a id (.take :: ts) := by
  intro h₁ g h₂ heq
  cases h₁ with
  | nil => exact absurd (List.cons.inj heq).1 nofun
  | cons t h₁ =>
    obtain ⟨rfl, htail⟩ := List.cons.inj heq
    exact hts h₁ g h₂ htail

theorem handle_fragment (hrun : e.running = true) (f : Fragment) :
    (e.handle none 0 a f.encode).2 = e.onFragment a f.encode.tail := by
  have hmark : f.encode = fragmentMark :: f.encode.tail := rfl
  have hping : fragmentMark ≠ pingMark := by decide
  have hopen : fragmentMark ≠ openMark := by decide
  rw [hmark]
  simp only [handle, hrun, not_true_eq_false, if_false, if_neg hping, if_neg hopen, if_true,
    List.tail_cons]

namespace Tends

/-- Another state of the reassembly is kept. -/
theorem keep (h : e.Tends a id r) (s : Reassembly) :
    Endpoint.Tends { e with peers := e.peers.modify a fun p => { p with reassembly := s } } a id s := by
  obtain ⟨p, hp, hid, -⟩ := h.peer
  refine ⟨h.running, ⟨{ p with reassembly := s }, ?_, hid, rfl⟩, h.connection⟩
  rw [Table.get?_modify, if_pos rfl, hp]
  rfl

theorem deliver (h : e.Tends a id r) (got : Except LinkError Bytes) :
    (e.deliver a id got).Tends a id r ∧ (e.deliver a id got).inbox id =
      if (e.inbox id).length < inboxCapacity then e.inbox id ++ [got] else e.inbox id := by
  obtain ⟨c, hc⟩ := h.connection
  have hdeliver : e.deliver a id got =
      { e with connections := e.connections.modify id fun c => c.deliver got } := by
    rw [Endpoint.deliver, if_pos (by rw [Table.contains, hc]; rfl)]
  have hget : (e.connections.modify id fun c => c.deliver got).get? id = some (c.deliver got) := by
    rw [Table.get?_modify, if_pos rfl, hc]
    rfl
  rw [hdeliver]
  refine ⟨⟨h.running, h.peer, _, hget⟩, ?_⟩
  rw [inbox, inbox, hget, hc, Connection.deliver]
  show (if c.inbox.length < inboxCapacity then _ else c).inbox = _
  split
  · next hroom => exact (if_pos hroom).symm
  · next hroom => exact (if_neg hroom).symm

/-- Whatever a fragment brings is put into the inbox, if there is room. -/
theorem arrival (h : e.Tends a id r) (f : Fragment) :
    (e.next (Turn.arrival f |>.incident a id)).Tends a id (r.feed f).2 ∧
      (e.next (Turn.arrival f |>.incident a id)).inbox id =
        match (r.feed f).1 with
        | some got => if (e.inbox id).length < inboxCapacity then e.inbox id ++ [got] else e.inbox id
        | none => e.inbox id := by
  obtain ⟨p, hp, rfl, rfl⟩ := h.peer
  have hnext : e.next (Turn.arrival f |>.incident a p.connection) = e.onFragment a f.encode.tail :=
    handle_fragment h.running f
  rw [hnext, onFragment, hp]
  dsimp only
  rw [f.eval_encode, Reassembly.feed]
  dsimp only
  generalize p.reassembly.accept f = accepted
  obtain ⟨accepted, s⟩ := accepted
  cases accepted with
  | error m => exact (h.keep s).deliver _
  | ok complete =>
    cases complete with
    | none => exact ⟨h.keep s, rfl⟩
    | some complete =>
      dsimp only
      generalize s.deliver complete.1 = delivered
      obtain ⟨later, s⟩ := delivered
      cases later with
      | false => exact ⟨h.keep s, rfl⟩
      | true => exact (h.keep s).deliver _

theorem take (h : e.Tends a id r) :
    (e.next (Turn.take.incident a id)).Tends a id r ∧
      (e.next (Turn.take.incident a id)).inbox id = (e.inbox id).tail := by
  obtain ⟨c, hc⟩ := h.connection
  have hreceive : (c.receive (e.isFed id)).2.inbox = c.inbox.tail := by
    unfold Connection.receive
    split
    · next b q hq => rw [hq]; rfl
    · next err q hq => rw [hq]; rfl
    · next hq => rw [hq]; rfl
  have hnext : e.next (Turn.take.incident a id) =
      { e with connections := e.connections.modify id fun _ => (c.receive (e.isFed id)).2 } := by
    show (e.receive id).2 = _
    rw [receive, hc]
  have hget : (e.connections.modify id fun _ => (c.receive (e.isFed id)).2).get? id =
      some (c.receive (e.isFed id)).2 := by
    rw [Table.get?_modify, if_pos rfl, hc]
    rfl
  rw [hnext]
  refine ⟨⟨h.running, h.peer, _, hget⟩, ?_⟩
  rw [inbox, inbox, hget, hc]
  exact hreceive

/-- One turn adds to the inbox what it brings, or nothing if there is no room. -/
theorem gain_arrival (h : e.Tends a id r) (f : Fragment) :
    ((e.next (Turn.arrival f |>.incident a id)).inbox id).drop (e.inbox id).length =
      if (e.inbox id).length < inboxCapacity then (r.feed f).1.toList else [] := by
  rw [(h.arrival f).2]
  cases (r.feed f).1 with
  | none => simp
  | some got =>
    dsimp only
    split
    · exact List.drop_left
    · exact List.drop_length

theorem gain_take (h : e.Tends a id r) :
    ((e.next (Turn.take.incident a id)).inbox id).drop (e.inbox id).length = [] := by
  refine List.drop_eq_nil_of_le ?_
  rw [h.take.2, List.length_tail]
  exact Nat.sub_le _ _

/-- What is put into the inbox is what the fragments that arrive bring. -/
theorem mem_yields (h : e.Tends a id r) {ts : List Turn} {got : Except LinkError Bytes}
    (hgot : got ∈ e.gains a id ts) : got ∈ r.yields (arrivals ts) := by
  induction ts generalizing e r with
  | nil => cases hgot
  | cons t ts ih =>
    rw [gains, List.mem_append] at hgot
    cases t with
    | arrival f =>
      show got ∈ (r.feed f).1.toList ++ (r.feed f).2.yields (arrivals ts)
      rw [h.gain_arrival f] at hgot
      rcases hgot with hgot | hgot
      · split at hgot
        · exact List.mem_append_left _ hgot
        · cases hgot
      · exact List.mem_append_right _ (ih (h.arrival f).1 hgot)
    | take =>
      rw [h.gain_take] at hgot
      exact ih h.take.1 (hgot.resolve_left List.not_mem_nil)

/-- All that they bring is put there, if there is always room. -/
theorem gains_of_drained (h : e.Tends a id r) {ts : List Turn} (room : e.Drained a id ts) :
    e.gains a id ts = r.yields (arrivals ts) := by
  induction ts generalizing e r with
  | nil => rfl
  | cons t ts ih =>
    have hrest : (e.next (t.incident a id)).Drained a id ts := by
      intro h₁ f h₂ heq
      exact room (t :: h₁) f h₂ (congrArg (t :: ·) heq)
    cases t with
    | arrival f =>
      have hroom : (e.inbox id).length < inboxCapacity := room [] f ts rfl
      rw [gains, h.gain_arrival f, if_pos hroom, ih (h.arrival f).1 hrest]
      rfl
    | take =>
      rw [gains, h.gain_take, ih h.take.1 hrest]
      rfl

/-- Who takes a packet after each fragment always has room. -/
theorem drained_eagerly (h : e.Tends a id r) (empty : e.inbox id = []) (fs : List Fragment) :
    e.Drained a id (eagerly fs) := by
  induction fs generalizing e r with
  | nil => exact drained_nil
  | cons f fs ih =>
    obtain ⟨hf, hinbox⟩ := h.arrival f
    obtain ⟨ht, htail⟩ := hf.take
    have hroom : (e.inbox id).length < inboxCapacity := by
      rw [empty]
      decide
    refine drained_arrival hroom (drained_take (ih ht ?_))
    rw [htail, hinbox]
    cases (r.feed f).1 with
    | none => exact congrArg List.tail empty
    | some got =>
      dsimp only
      rw [if_pos hroom, empty]
      rfl

theorem afterTurns (h : e.Tends a id r) (ts : List Turn) :
    (e.afterTurns a id ts).Tends a id (r.after (arrivals ts)) := by
  induction ts generalizing e r with
  | nil => exact h
  | cons t ts ih =>
    cases t with
    | arrival f => exact ih (h.arrival f).1
    | take => exact ih h.take.1

end Tends

end Endpoint
end Datagram
end EditionGateway
