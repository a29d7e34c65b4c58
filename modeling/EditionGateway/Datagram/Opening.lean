import EditionGateway.Datagram.Endpoint

/-!
How a client gets a connection: it asks up to three times and waits half a second for each answer.
-/

namespace EditionGateway
namespace Datagram

def openAttempts : Nat := 3

/-- What comes of one request: a datagram of the server, or of a stranger, or silence. -/
inductive Reply
  | server (b : Bytes)
  | stranger (b : Bytes)
  | silence
deriving Repr

/-- What the server has agreed to. -/
structure Agreement where
  guid : UInt64
  mtu : UInt16
deriving DecidableEq, Repr

/-- What an answer of the server means; nothing if it is no answer to the request. -/
def answerOf (b : Bytes) : Except LinkError (Option Agreement) :=
  Scan.eval scan b
where
  scan : Scan (Option Agreement) := do
    let mark := UInt8.ofNat (← Scan.number 1)
    if mark = openedMark then
      let guid ← Scan.number 8
      let mtu ← Scan.number 2
      return some ⟨UInt64.ofNat guid, UInt16.ofNat mtu⟩
    else if mark = incompatibleMark then
      let theirs ← Scan.number 1
      throw (.connectFailed (.incompatibleVersion (UInt8.ofNat theirs)))
    else return none

/-- Whether a reply ends the attempts, and how. -/
def Reply.outcome : Reply → Except LinkError (Option Agreement)
  | .server [] => .ok none
  | .server b => answerOf b
  | .stranger _ => .ok none
  | .silence => .ok none

/-- Asks at most `attempts` times; the result, and how many requests were sent. After the last reply
there is silence. -/
def openWith (server : Address) : Nat → List Reply → Except LinkError Agreement × Nat
  | 0, _ => (.error (.timedOut ("no open reply from " ++ server)), 0)
  | attempts + 1, replies =>
    match (replies.headD .silence).outcome with
    | .ok (some a) => (.ok a, 1)
    | .error e => (.error e, 1)
    | .ok none =>
      let (result, sent) := openWith server attempts replies.tail
      (result, sent + 1)

end Datagram
end EditionGateway
