import EditionGateway.Datagram.Opening

/-!
How a client asks a server for its advertisement: it sends a ping and waits for the pong that
repeats the time in it.
-/

namespace EditionGateway
namespace Datagram

/-- The text of the pong to a ping; nothing if the datagram is something else. -/
def pongText (time : UInt64) (b : Bytes) : Except LinkError (Option String) :=
  Scan.eval scan b
where
  scan : Scan (Option String) := do
    let mark := UInt8.ofNat (← Scan.number 1)
    if mark ≠ pongMark then return none
    if (← Scan.number 8) ≠ time.toNat then return none
    let _ ← Scan.number 8
    let length ← Scan.number 2
    match Bytes.toText? (← Scan.take length) with
    | some text => return some text
    | none => throw (.malformed .badText)

/-- Looks at the replies that come before the time is up. -/
def probe (server : Address) (time : UInt64) : List Reply → Except LinkError String
  | [] => .error (.timedOut ("no pong from " ++ server))
  | .server b :: r =>
    match pongText time b with
    | .ok (some text) => .ok text
    | .ok none => probe server time r
    | .error e => .error e
  | .stranger _ :: r => probe server time r
  | .silence :: r => probe server time r

end Datagram
end EditionGateway
