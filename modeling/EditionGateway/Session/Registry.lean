import EditionGateway.Discovery.StatusDocument
import EditionGateway.Session.Channel
import EditionGateway.Session.Error

/-!
The registry of the established sessions of a gateway. It also keeps the last known status of the
backend, and whether the gateway is shutting down.
-/

namespace EditionGateway

/-- What others need to reach a session. -/
structure SessionHandle where
  id : SessionId
  username : String
  address : String
  channel : ChannelId
deriving DecidableEq, Repr

/-- A handle in the registry, with the number of the registration that put it there. -/
structure RegistryEntry where
  handle : SessionHandle
  ticket : UInt64
deriving DecidableEq, Repr

structure Registry where
  sessions : Table SessionId RegistryEntry := []
  status : Option BackendStatus := none
  shuttingDown : Bool := false
  registered : UInt64 := 0
  deregistered : UInt64 := 0
  rejected : UInt64 := 0
deriving Repr

/-- The right to remove a session again, once. `ticket` tells registrations of one id apart. -/
structure Registration where
  id : SessionId
  ticket : UInt64
  released : Bool := false
deriving DecidableEq, Repr

structure RegistryStats where
  live : Nat
  registered : UInt64
  deregistered : UInt64
  rejected : UInt64
deriving DecidableEq, Repr

namespace Registry

/-- Adds a session, unless the gateway is shutting down or the id is taken. -/
def register (r : Registry) (h : SessionHandle) : Except SessionError Registration × Registry :=
  if r.shuttingDown then (.error .shuttingDown, { r with rejected := r.rejected + 1 })
  else if r.sessions.contains h.id then
    (.error (.alreadyRegistered h.id), { r with rejected := r.rejected + 1 })
  else
    (.ok ⟨h.id, r.registered, false⟩,
      { r with
        sessions := r.sessions.insert h.id ⟨h, r.registered⟩
        registered := r.registered + 1 })

/-- Removes the session of an id; also whether there was one. -/
def deregister (r : Registry) (id : SessionId) : Bool × Registry :=
  if r.sessions.contains id then
    (true, { r with sessions := r.sessions.erase id, deregistered := r.deregistered + 1 })
  else (false, r)

/-- Gives a registration back. Only the first time counts; it removes the session of that id. -/
def release (r : Registry) (g : Registration) : Registration × Registry :=
  if g.released then (g, r) else ({ g with released := true }, (r.deregister g.id).2)

/-- The handles of all sessions. -/
def snapshot (r : Registry) : List SessionHandle := r.sessions.values.map (·.handle)

/-- The handles of all sessions, by their numbers. -/
def handles (r : Registry) : List SessionHandle :=
  r.snapshot.mergeSort fun a b => a.id.value ≤ b.id.value

def get? (r : Registry) (id : SessionId) : Option SessionHandle :=
  (r.sessions.get? id).map (·.handle)

def findByName? (r : Registry) (username : String) : Option SessionHandle :=
  r.snapshot.find? (·.username = username)

def size (r : Registry) : Nat := r.sessions.length

def isEmpty (r : Registry) : Bool := r.sessions.isEmpty

def stats (r : Registry) : RegistryStats := ⟨r.size, r.registered, r.deregistered, r.rejected⟩

def updateStatus (r : Registry) (s : BackendStatus) : Registry := { r with status := some s }

/-- From now on no session is added. -/
def beginShutdown (r : Registry) : Registry := { r with shuttingDown := true }

/-- Shutting down is finished once every session is gone. -/
def isDrained (r : Registry) : Bool := r.shuttingDown && r.isEmpty

/-- The outcome of a broadcast: how many sessions took the line, and whether it had to stop at one
without room. -/
structure Broadcast where
  delivered : Nat := 0
  stuck : Bool := false
deriving DecidableEq, Repr

/-- Sends a line of chat to every session; those that no longer receive are passed over. -/
def broadcast (r : Registry) (s : Switchboard) (text : String) : Broadcast × Switchboard :=
  r.snapshot.foldl
    (fun (b, s) h =>
      if b.stuck then (b, s)
      else
        match s.post h.channel (.sendMessage text) with
        | (.queued, s) => ({ b with delivered := b.delivered + 1 }, s)
        | (.full, s) => ({ b with stuck := true }, s)
        | (.refused, s) => (b, s))
    ({}, s)

end Registry
end EditionGateway
