import EditionGateway.Json.Parser
import EditionGateway.Json.Record
import EditionGateway.Session.Error
import EditionGateway.Text.Blank

/-!
What a client tells about itself during the login: a JSON object of which six fields are looked at.
-/

namespace EditionGateway

inductive DeviceOs
  | unknown
  | android
  | ios
  | macOs
  | fireOs
  | windows
  | playStation
  | switch
  | xbox
deriving DecidableEq, Repr

namespace DeviceOs

def ofCode (code : Int) : DeviceOs :=
  match code with
  | 1 => .android
  | 2 => .ios
  | 3 => .macOs
  | 4 => .fireOs
  | 7 => .windows
  | 8 => .windows
  | 11 => .playStation
  | 12 => .switch
  | 13 => .xbox
  | _ => .unknown

def name : DeviceOs → String
  | .unknown => "Unknown"
  | .android => "Android"
  | .ios => "Ios"
  | .macOs => "MacOs"
  | .fireOs => "FireOs"
  | .windows => "Windows"
  | .playStation => "PlayStation"
  | .switch => "Switch"
  | .xbox => "Xbox"

def isMobile : DeviceOs → Bool
  | .android => true
  | .ios => true
  | .fireOs => true
  | _ => false

end DeviceOs

inductive InputMode
  | unknown
  | mouse
  | touch
  | gamePad
  | motionController
deriving DecidableEq, Repr

namespace InputMode

def ofCode (code : Int) : InputMode :=
  match code with
  | 1 => .mouse
  | 2 => .touch
  | 3 => .gamePad
  | 4 => .motionController
  | _ => .unknown

def name : InputMode → String
  | .unknown => "Unknown"
  | .mouse => "Mouse"
  | .touch => "Touch"
  | .gamePad => "GamePad"
  | .motionController => "MotionController"

end InputMode

structure ClientData where
  languageCode : String := "en_US"
  deviceOs : DeviceOs := .unknown
  inputMode : InputMode := .unknown
  viewDistance : Option Int32 := none
  deviceModel : Option String := none
  gameVersion : Option String := none
deriving DecidableEq, Repr

namespace ClientData

def defaultLanguage : String := "en_US"

/-- The fields that are looked at, each with the keys it is known by. -/
def fieldNames : List (List String) :=
  [["LanguageCode"], ["DeviceOS"], ["CurrentInputMode"], ["ViewDistance", "RenderDistance"],
    ["DeviceModel"], ["GameVersion"]]

def ofJson (j : Json) : Option ClientData := do
  let (_, vs) ← j.fieldValues? fieldNames false Json.maxDepth
  match vs with
  | [language, os, input, view, model, version] =>
    let language ← Json.optional? Json.text? language
    let os ← Json.optional? (Json.intOfWord? UInt64.size) os
    let input ← Json.optional? (Json.intOfWord? UInt64.size) input
    let view ← Json.optional? (Json.intOfWord? UInt32.size) view
    let model ← Json.optional? Json.text? model
    let version ← Json.optional? Json.text? version
    return {
      languageCode := (language.filter fun s => !s.isEmpty).getD defaultLanguage
      deviceOs := (os.map .ofCode).getD .unknown
      inputMode := (input.map .ofCode).getD .unknown
      viewDistance := view.map Int32.ofInt
      deviceModel := model
      gameVersion := version }
  | _ => none

def parse (payload : String) : Except SessionError ClientData :=
  match (Json.parse (Bytes.ofText payload)).bind ofJson with
  | some d => .ok d
  | none => .error (.malformedClientData "not the expected object")

def locale (d : ClientData) : String := Text.lowerAscii d.languageCode

end ClientData
end EditionGateway
