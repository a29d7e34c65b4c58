import EditionGateway.Json.Parser
import EditionGateway.Json.Printer
import EditionGateway.Json.Record

/-!
The document by which a backend tells its status.
-/

namespace EditionGateway

/-- A line of text, bare or wrapped in an object. -/
inductive Description
  | plain (text : String)
  | component (text : String)
deriving DecidableEq, Repr

structure StatusDocument where
  versionName : String
  protocol : Int32
  maxPlayers : UInt32
  onlinePlayers : UInt32
  description : Description
deriving DecidableEq, Repr

namespace Description

def text : Description → String
  | .plain s => s
  | .component s => s

def toJson : Description → Json
  | .plain s => .str s
  | .component s => .obj [("text", .str s)]

/-- All of a description is kept before it is looked at, so no part of it is ignored. -/
def ofJson (d : Nat) (j : Json) : Option Description :=
  if j.isStrict d then
    match j with
    | .text (some s) => some (.plain s)
    | _ =>
      match j.fieldValues? [["text"]] false d with
      | some (_, [some v]) => v.text?.map .component
      | _ => none
  else none

end Description

namespace StatusDocument

def versionOfJson (d : Nat) (j : Json) : Option (String × Int32) := do
  let (_, vs) ← j.fieldValues? [["name"], ["protocol"]] false d
  match vs with
  | [some name, some protocol] =>
    return (← name.text?, Int32.ofInt (← protocol.intOfWord? UInt32.size))
  | _ => none

def playersOfJson (d : Nat) (j : Json) : Option (UInt32 × UInt32) := do
  let (_, vs) ← j.fieldValues? [["max"], ["online"]] false d
  match vs with
  | [some max, some online] =>
    let max ← max.natBelow? UInt32.size
    let online ← online.natBelow? UInt32.size
    return (UInt32.ofNat max, UInt32.ofNat online)
  | _ => none

def ofJson (j : Json) : Option StatusDocument := do
  let (d, vs) ← j.fieldValues? [["version"], ["players"], ["description"]] false Json.maxDepth
  match vs with
  | [some version, some players, some description] =>
    let (versionName, protocol) ← versionOfJson d version
    let (maxPlayers, onlinePlayers) ← playersOfJson d players
    let description ← Description.ofJson d description
    return { versionName, protocol, maxPlayers, onlinePlayers, description }
  | _ => none

def parse (s : String) : Option StatusDocument := (Json.parse (Bytes.ofText s)).bind ofJson

def toJson (s : StatusDocument) : Json := .obj [
  ("version", .obj [("name", .str s.versionName), ("protocol", .ofInt s.protocol.toInt)]),
  ("players", .obj [("max", .ofNat s.maxPlayers.toNat), ("online", .ofNat s.onlinePlayers.toNat)]),
  ("description", s.description.toJson)]

end StatusDocument

/-- What a probe learned about the backend. -/
structure BackendStatus where
  motd : String
  onlinePlayers : UInt32
  maxPlayers : UInt32
  versionName : String
  protocol : Int32
  latencyMs : Option UInt64
deriving DecidableEq, Repr

end EditionGateway
