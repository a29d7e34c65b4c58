import EditionGateway.Session.Disconnect
import EditionGateway.Session.Lifecycle
import EditionGateway.Table

/-!
How the rest of the gateway talks to a running session: a queue of commands with room for a fixed
number of them, and a view of the session's state.
-/

namespace EditionGateway

inductive SessionCommand
  | close (reason : DisconnectReason)
  | sendMessage (text : String)
deriving DecidableEq, Repr

/-- Commands that wait to be taken, oldest first. Once the session stops receiving, none is
accepted. -/
structure Mailbox where
  capacity : Nat
  queue : List SessionCommand := []
  receiving : Bool := true
deriving Repr

/-- What becomes of a command that is put into a mailbox: it is queued, or it has to wait for room,
or there is nobody to take it. -/
inductive Posting
  | queued
  | full
  | refused
deriving DecidableEq, Repr

namespace Mailbox

def post (m : Mailbox) (c : SessionCommand) : Posting × Mailbox :=
  if ¬ m.receiving then (.refused, m)
  else if m.queue.length < m.capacity then (.queued, { m with queue := m.queue ++ [c] })
  else (.full, m)

def take? (m : Mailbox) : Option (SessionCommand × Mailbox) :=
  match m.queue with
  | c :: r => some (c, { m with queue := r })
  | [] => none

/-- Stops receiving; what is still queued is lost. -/
def close (m : Mailbox) : Mailbox := { m with queue := [], receiving := false }

end Mailbox

/-- The connection between a session and those who hold a handle to it. -/
structure Channel where
  mailbox : Mailbox
  state : Lifecycle
  abandoned : Bool := false
deriving Repr

namespace Channel

/-- Waiting for the session to be closed ends when it is, or when nobody can tell its state any
more. -/
def isOver (c : Channel) : Bool := c.state.isTerminal || c.abandoned

end Channel

abbrev ChannelId := Nat

/-- All channels of a gateway. -/
abbrev Switchboard := Table ChannelId Channel

def Switchboard.post (s : Switchboard) (id : ChannelId) (c : SessionCommand) :
    Posting × Switchboard :=
  match s.get? id with
  | some channel =>
    let (posting, mailbox) := channel.mailbox.post c
    (posting, s.modify id fun channel => { channel with mailbox })
  | none => (.refused, s)

end EditionGateway
