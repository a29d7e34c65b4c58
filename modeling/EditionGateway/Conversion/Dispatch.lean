import EditionGateway.Conversion.ToClient

/-!
Choosing the converter of a packet and counting what came of it.
-/

namespace EditionGateway

open Conversion

/-- The converters of both directions, by the kind of packet. -/
structure Converters where
  toBackend : Table Client.Kind ToBackend := []
  toClient : Table Backend.Kind ToClient := []
  mappings : Mappings := {}

/-- How many packets were converted, had no conversion, and could not be converted. -/
structure ConversionStats where
  converted : UInt64 := 0
  unmapped : UInt64 := 0
  failed : UInt64 := 0
deriving DecidableEq, Repr

/-- What dispatching a packet gives. -/
structure Dispatched (target : Type) where
  packets : List target
  context : SessionContext
  stats : ConversionStats

namespace Converters

/-- All built-in converters. -/
def standard (mappings : Mappings) : Converters where
  toBackend := ToBackend.converters
  toClient := ToClient.converters
  mappings := mappings

/-- A packet without a conversion, or whose conversion fails, yields nothing. -/
def apply {source target : Type} (m : Mappings) (t? : Option (Converter source target))
    (stats : ConversionStats) (c : SessionContext) (p : source) : Dispatched target :=
  match t? with
  | none => ⟨[], c, { stats with unmapped := stats.unmapped + 1 }⟩
  | some t =>
    match t m c p c with
    | (.ok out, c) => ⟨out, c, { stats with converted := stats.converted + 1 }⟩
    | (.error e, c) =>
      if e.isUnmapped then ⟨[], c, { stats with unmapped := stats.unmapped + 1 }⟩
      else ⟨[], c, { stats with failed := stats.failed + 1 }⟩

def dispatchToBackend (t : Converters) (stats : ConversionStats) (c : SessionContext)
    (p : Client.Packet) : Dispatched Backend.Packet :=
  apply t.mappings (t.toBackend.get? p.kind) stats c p

def dispatchToClient (t : Converters) (stats : ConversionStats) (c : SessionContext)
    (p : Backend.Packet) : Dispatched Client.Packet :=
  apply t.mappings (t.toClient.get? p.kind) stats c p

def handlesToBackend (t : Converters) (k : Client.Kind) : Bool := t.toBackend.contains k

def handlesToClient (t : Converters) (k : Backend.Kind) : Bool := t.toClient.contains k

end Converters
end EditionGateway
