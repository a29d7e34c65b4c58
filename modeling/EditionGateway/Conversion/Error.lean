/-!
Why a packet has no conversion. None of these ends a session: the packet is dropped and counted.
-/

namespace EditionGateway

inductive ConversionError
  | noMapping (table : String) (id : Int32)
  | invalidValue (field detail : String)
  | missingContext (what : String)
deriving DecidableEq, Repr

namespace ConversionError

def message : ConversionError → String
  | .noMapping table id => "no " ++ table ++ " mapping for " ++ toString id.toInt
  | .invalidValue field detail => "invalid " ++ field ++ ": " ++ detail
  | .missingContext what => "missing session state: " ++ what

def isUnmapped : ConversionError → Bool
  | .noMapping .. => true
  | _ => false

end ConversionError

inductive Direction
  | toBackend
  | toClient
deriving DecidableEq, Repr

def Direction.label : Direction → String
  | .toBackend => "upstream"
  | .toClient => "downstream"

end EditionGateway
