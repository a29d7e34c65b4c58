import EditionGateway.Linking.Conversation

/-!
A backend that follows a script, and what comes of a conversation with it.
-/

namespace EditionGateway

/-- What the backend does: it takes a packet, or sends the body of a frame, or answers the last
ping, or sets its compression threshold, or takes packets until the link ends. -/
inductive ScriptStep
  | expect
  | send (body : Bytes)
  | pong (delta : Int64)
  | threshold (t : Threshold)
  | hold

/-- What the backend saw when it expected a packet. -/
inductive Seen
  | packet (p : Backend.Packet)
  | unreadable (e : CodecError)
  | ended

/-- A backend at the second end of a stream. -/
structure ScriptedBackend where
  steps : List ScriptStep
  seen : List Seen := []
  lastPing : Int64 := 0
  gone : Bool := false

namespace ScriptedBackend

/-- Keeps what it has seen. -/
def note (b : ScriptedBackend) (s : Seen) : ScriptedBackend :=
  match s with
  | .packet (.pingRequest payload) => { b with seen := b.seen ++ [s], lastPing := payload }
  | _ => { b with seen := b.seen ++ [s] }

def seenOf (body : Bytes) : Seen :=
  match Backend.Packet.shape.decode body with
  | .ok p => .packet p
  | .error e => .unreadable e

def sent (body : Bytes) (l : StreamPair) : StreamPair := (l.send .second body).toOption.getD l

/-- One step of the script, if it does not have to wait. After the last one the backend goes. -/
def step (b : ScriptedBackend) (l : StreamPair) : Option (ScriptedBackend × StreamPair) :=
  match b.steps with
  | [] => if b.gone then none else some ({ b with gone := true }, l.drop .second)
  | .expect :: r =>
    match l.receive .second with
    | (none, _) => none
    | (some (.packet body), l) => some ({ b with steps := r }.note (seenOf body), l)
    | (some _, l) => some ({ b with steps := [] }.note .ended, l)
  | .send body :: r => some ({ b with steps := r }, sent body l)
  | .pong delta :: r =>
    let pong := Backend.Packet.shape.write (.pongResponse (b.lastPing + delta))
    some ({ b with steps := r }, sent pong l)
  | .threshold t :: r => some ({ b with steps := r }, l.setThreshold .second t)
  | .hold :: r =>
    match l.receive .second with
    | (none, _) => none
    | (some (.packet _), l) => some (b, l)
    | (some _, l) => some ({ b with steps := r }, l)

/-- Follows the script, in at most `fuel` steps, until it has to wait; also whether it made any. -/
def run : Nat → ScriptedBackend → StreamPair → Bool × ScriptedBackend × StreamPair
  | 0, b, l => (false, b, l)
  | fuel + 1, b, l =>
    match b.step l with
    | some (b, l) => (true, (run fuel b l).2)
    | none => (false, b, l)

end ScriptedBackend

namespace Conversation

variable {τ α : Type}

/-- Both sides take turns, at most `fuel` times, until there is a result or both wait. -/
def withScript (c : Conversation τ α) : Nat → ScriptedBackend → StreamPair →
    Option (Except BackendError α) × ScriptedBackend × StreamPair
  | 0, b, l => (none, b, l)
  | fuel + 1, b, l =>
    match c.run (fuel + 1) l with
    | (some r, _, l) => (some r, b, l)
    | (none, c, l) =>
      match b.run (fuel + 1) l with
      | (true, b, l) => withScript c fuel b l
      | (false, b, l) => (none, b, l)

/-- The whole conversation with what the gateway says first. No result comes if both sides wait. -/
def holdWith (c : Conversation τ α) (opening : List Backend.Packet) (fuel : Nat)
    (b : ScriptedBackend) : Option (Except BackendError α) × ScriptedBackend × StreamPair :=
  match StreamPair.sendPackets {} opening with
  | (.error e, l) => (some (.error e), b, l)
  | (.ok _, l) => c.withScript fuel b l

end Conversation
end EditionGateway
