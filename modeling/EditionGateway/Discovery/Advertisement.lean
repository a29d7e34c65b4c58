import EditionGateway.Text.Quoted

/-!
The line by which a server is advertised to clients that look for one: twelve fields, each followed
by a semicolon.
-/

namespace EditionGateway

structure Advertisement where
  edition : String
  motd : String
  protocol : UInt32
  version : String
  onlinePlayers : UInt32
  maxPlayers : UInt32
  serverGuid : UInt64
  subMotd : String
  gameMode : String
  portV4 : UInt16
  portV6 : UInt16
deriving DecidableEq, Repr

namespace Advertisement

inductive Malformed
  | tooFewFields (count : Nat)
  | badNumber (field text : String)
deriving DecidableEq, Repr

def fieldCount : Nat := 12

def Malformed.message : Malformed → String
  | .tooFewFields n => "expected " ++ toString fieldCount ++ " fields, got " ++ toString n
  | .badNumber field text => "bad " ++ field ++ ": " ++ Text.quoted text

/-- Puts a backslash before each semicolon. A backslash that stands there already stays single. -/
def escape (s : String) : List Char :=
  s.toList.flatMap fun c => if c = ';' then ['\\', ';'] else [c]

def field (cs : List Char) : List Char := cs ++ [';']

def numeral (n : Nat) : List Char := (toString n).toList

def encode (a : Advertisement) : String :=
  String.ofList <| [a.edition.toList, escape a.motd, numeral a.protocol.toNat, a.version.toList,
    numeral a.onlinePlayers.toNat, numeral a.maxPlayers.toNat, numeral a.serverGuid.toNat,
    escape a.subMotd, a.gameMode.toList, numeral 1, numeral a.portV4.toNat,
    numeral a.portV6.toNat].flatMap field

/-- Cuts a line at each semicolon that has no backslash before it. The part after the last one
counts if it is not empty. `current` holds the field so far in reverse. -/
def splitFrom (current : List Char) : List Char → List String
  | [] => if current.isEmpty then [] else [String.ofList current.reverse]
  | '\\' :: ';' :: r => splitFrom (';' :: current) r
  | c :: r =>
    if c = ';' then String.ofList current.reverse :: splitFrom [] r else splitFrom (c :: current) r

def split (s : String) : List String := splitFrom [] s.toList

/-- The number that a text of decimal digits stands for; one plus sign may stand in front. -/
def number? (s : String) : Option Nat :=
  let digits := match s.toList with
    | '+' :: r => r
    | cs => cs
  if digits.isEmpty then none
  else digits.foldlM (fun n c => if c.isDigit then some (10 * n + (c.toNat - 48)) else none) 0

def numberBelow (bound : Nat) (name text : String) : Except Malformed Nat :=
  match number? text with
  | some n => if n < bound then .ok n else .error (.badNumber name text)
  | none => .error (.badNumber name text)

def parse (s : String) : Except Malformed Advertisement :=
  match split s with
  | edition :: motd :: protocol :: version :: online :: max :: guid :: subMotd :: mode :: _ ::
      portV4 :: portV6 :: _ => do
    let protocol ← numberBelow UInt32.size "protocol" protocol
    let online ← numberBelow UInt32.size "online players" online
    let max ← numberBelow UInt32.size "max players" max
    let guid ← numberBelow UInt64.size "guid" guid
    let portV4 ← numberBelow UInt16.size "ipv4 port" portV4
    let portV6 ← numberBelow UInt16.size "ipv6 port" portV6
    return {
      edition, motd, version, subMotd
      gameMode := mode
      protocol := UInt32.ofNat protocol
      onlinePlayers := UInt32.ofNat online
      maxPlayers := UInt32.ofNat max
      serverGuid := UInt64.ofNat guid
      portV4 := UInt16.ofNat portV4
      portV6 := UInt16.ofNat portV6 }
  | fields => .error (.tooFewFields fields.length)

end Advertisement
end EditionGateway
