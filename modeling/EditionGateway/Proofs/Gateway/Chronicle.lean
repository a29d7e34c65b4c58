import EditionGateway.Gateway.Host
import EditionGateway.Proofs.Session.Course

/-!
What can become of a whole gateway. Its sessions get on in any order, each by what is done for it and
what it is told, and the network, the mailboxes and the clock change as they please.
-/

namespace EditionGateway

/-- Something that can happen to a gateway. -/
inductive Move (σ : Type)
  | welcome (address : Address)
  | perform (id : SessionId) (lane : Lane)
  | tell (id : SessionId) (e : Event)
  | beginShutdown
  | change (network : σ) (switchboard : Switchboard) (status : Option BackendStatus) (now : Nat)

/-- A new session comes with this. -/
def Move.isWelcome {σ : Type} : Move σ → Bool
  | .welcome _ => true
  | _ => false

def Event.isDone : Event → Bool
  | .done .. => true
  | _ => false

/-- The moves with which a session goes through such events, as far as it does one thing after the
other. -/
def Move.through {σ : Type} (id : SessionId) (es : List Event) : List (Move σ) :=
  es.map fun e => if e.isDone then .perform id .main else .tell id e

/-- A gateway, and what has been noted about each of its sessions. -/
structure Chronicle (σ : Type) where
  host : Host σ
  notes : SessionId → Notes := fun _ => []

namespace Chronicle

variable {σ : Type}

/-- A gateway without sessions. -/
def start (config : GatewayConfig) (mappings : Mappings) (network : σ) : Chronicle σ where
  host := { config, converters := .standard mappings, network }

/-- The course of a session until now. -/
def course (c : Chronicle σ) (id : SessionId) (seat : Seat) : Course := ⟨seat.session, c.notes id⟩

@[simp] theorem course_session (c : Chronicle σ) (id : SessionId) (seat : Seat) :
    (c.course id seat).session = seat.session := rfl

@[simp] theorem course_notes (c : Chronicle σ) (id : SessionId) (seat : Seat) :
    (c.course id seat).notes = c.notes id := rfl

/-- A client gets a session, about which nothing is noted. -/
def welcome (c : Chronicle σ) (address : Address) : Chronicle σ :=
  let (id, host) := c.host.welcome address
  { host, notes := fun j => if j = id then [] else c.notes j }

/-- A session is told what has happened, and it is noted. -/
def hear (c : Chronicle σ) (id : SessionId) (seat : Seat) (e : Event) : Chronicle σ where
  host := c.host.handle id seat e
  notes j := if j = id then ((c.course id seat).next c.host.now e).notes else c.notes j

/-- Does what is next in a lane of a session. -/
def perform [Network σ] (c : Chronicle σ) (id : SessionId) (seat : Seat) (lane : Lane) (a : Act) :
    Chronicle σ :=
  let (r, host) := c.host.perform id seat a
  { c with host }.hear id seat (.done lane r)

/-- A move that cannot be made changes nothing. -/
def next [Network σ] (c : Chronicle σ) : Move σ → Chronicle σ
  | .welcome address => c.welcome address
  | .perform id lane =>
    match c.host.seats.get? id with
    | none => c
    | some seat =>
      match seat.session.next? lane with
      | none => c
      | some a => c.perform id seat lane a
  | .tell id e =>
    match c.host.seats.get? id with
    | none => c
    | some seat => if seat.session.awaits e ∧ ¬ e.isDone then c.hear id seat e else c
  | .beginShutdown => { c with host := { c.host with registry := c.host.registry.beginShutdown } }
  | .change network switchboard status now =>
    let registry := { c.host.registry with status }
    { c with host := { c.host with network, switchboard, registry, now } }

def after [Network σ] (c : Chronicle σ) (ms : List (Move σ)) : Chronicle σ := ms.foldl next c

@[simp] theorem after_nil [Network σ] (c : Chronicle σ) : c.after [] = c := rfl

@[simp] theorem after_append [Network σ] (c : Chronicle σ) (ms ns : List (Move σ)) :
    c.after (ms ++ ns) = (c.after ms).after ns :=
  List.foldl_append

end Chronicle

/-! ### What is done for a session -/

namespace Host

variable {σ : Type}

theorem transmit_host {α : Type} (shape : Shape α) (p : α)
    (send : Bytes → σ → Except LinkError Unit × σ) (failed : LinkError → GatewayError)
    (h : Host σ) : ∃ network, (h.transmit shape p send failed).2 = { h with network } := by
  unfold transmit
  split
  · exact ⟨h.network, rfl⟩
  · exact ⟨_, rfl⟩

variable [Network σ]

/-- Only what can fail fails. -/
theorem perform_result (h : Host σ) (id : SessionId) (seat : Seat) (a : Act) :
    (h.perform id seat a).1 = .ok () ∨ a.canFail := by
  cases a with
  | tell p => exact .inr rfl
  | ask p => exact .inr rfl
  | register u => exact .inr rfl
  | deregister =>
    refine .inl ?_
    unfold perform
    dsimp only
    split <;> rfl
  | _ => exact .inl rfl

/-- Most acts change nothing but the network and the mailboxes. -/
theorem perform_host (h : Host σ) (id : SessionId) (seat : Seat) {a : Act}
    (hr : a.kind ≠ .register) (hd : a.kind ≠ .deregister) :
    ∃ network switchboard, (h.perform id seat a).2 = { h with network, switchboard } := by
  cases a with
  | tell p =>
    obtain ⟨n, hn⟩ := h.transmit_host Client.Packet.shape p (Network.sendClient id) .clientLink
    exact ⟨n, h.switchboard, hn⟩
  | ask p =>
    obtain ⟨n, hn⟩ := h.transmit_host Backend.Packet.shape p (Network.sendBackend id) .backendLink
    exact ⟨n, h.switchboard, hn⟩
  | register u => exact absurd rfl hr
  | deregister => exact absurd rfl hd
  | _ => exact ⟨_, _, rfl⟩

end Host
end EditionGateway
